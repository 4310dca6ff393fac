/-
# What renaming leaves under each name

Members are renamed one by one in the order of their keys, and of two that end up under one name the later one stays.
For an object in order that can be said name by name, without the order:

| name | going out (`get?_outgoing`) | coming in (`get?_domain`) |
| --- | --- | --- |
| `_id` | what was under `id` | nothing |
| `_rev` | what was under `revision`, unless null | nothing |
| `id` | nothing | what was under `id`, or else under `_id` |
| `revision` | nothing | what was under `revision`, or else under `_rev` |
| the class field | | nothing, but for what comes from `_id` and `_rev` |
| any other | as before, but for nulls that are left out | as before, unless it has an underscore |
-/

import DocClient.Envelope
import DocClient.Proofs.Json.Value
import Mathlib.Data.List.Basic

namespace DocClient
namespace Envelope

/-- **What ends up under a name** is the last of the members that get it. -/
theorem get?_rename (name? : String → Json → Option String) (o : Object) (key : String) :
    (rename name? o).get? key = ((o.filter fun m => name? m.1 m.2 = some key).getLast?).map Prod.snd := by
  induction o using List.reverseRecOn with
  | nil => rfl
  | append_singleton o m ih =>
    have hsplit : rename name? (o ++ [m])
        = (name? m.1 m.2).elim (rename name? o) fun name => (rename name? o).insert name m.2 := by
      cases hm : name? m.1 m.2 <;>
        simp [rename, List.filterMap_append, hm, Table.ofList_append (α := Json) _ (_, m.2)]
    rw [hsplit, List.filter_append]
    cases hm : name? m.1 m.2 with
    | none => simp [hm, ih]
    | some name =>
      by_cases hk : key = name
      · simp [hm, hk, Table.get?_insert]
      · simp [hm, hk, Ne.symm hk, Table.get?_insert, ih]

/-- Where only one member may get a name, it is under the name if it gets it. -/
theorem get?_rename_single {name? : String → Json → Option String} {o : Object} (hs : o.Sorted) {key : String}
    (source : String) (keep : Json → Bool) (h : ∀ m ∈ o, name? m.1 m.2 = some key ↔ m.1 = source ∧ keep m.2) :
    (rename name? o).get? key = (o.get? source).filter keep := by
  have hfilter : o.filter (fun m => name? m.1 m.2 = some key)
      = (o.filter fun m => m.1 = source).filter fun m => keep m.2 := by
    rw [List.filter_filter]
    refine List.filter_congr fun m hm => ?_
    rw [Bool.and_comm, Bool.eq_iff_iff, Bool.and_eq_true, decide_eq_true_iff, decide_eq_true_iff, h m hm]
  rw [get?_rename, hfilter, Table.filter_key hs]
  cases o.get? source with
  | none => rfl
  | some v => by_cases hv : keep v <;> simp [hv, Option.filter]

/-- A name that no member gets has no value. -/
theorem get?_rename_eq_none {name? : String → Json → Option String} {o : Object} {key : String}
    (h : ∀ m ∈ o, name? m.1 m.2 ≠ some key) : (rename name? o).get? key = none := by
  rw [get?_rename, List.filter_eq_nil_iff.2 fun m hm => by simpa using h m hm]
  rfl

theorem sorted_rename (name? : String → Json → Option String) (o : Object) : (rename name? o).Sorted :=
  Table.sorted_ofList _

/-- Members that were canonical are canonical under other names. -/
theorem canonical_rename {name? : String → Json → Option String} {o : Object} (h : Json.CanonicalMembers o) :
    Json.CanonicalMembers (rename name? o) := by
  refine Json.canonicalMembers_of_forall fun m hm => ?_
  obtain ⟨source, hsource, hm⟩ := List.mem_filterMap.1 (Table.mem_of_mem_ofList hm)
  obtain ⟨name, -, rfl⟩ := Option.map_eq_some_iff.1 hm
  exact (h.of_mem hsource : source.2.Canonical)

/-- A value is another than null. -/
def isPresent (v : Json) : Bool := !v.isNull

/-- A member that is no name or revision goes out with this value. -/
def goesOut (policy : NullPolicy) (v : Json) : Bool := isPresent v || policy != .omit

/-- A value that is left out where it is null agrees with the value. -/
theorem agrees_filter_goesOut (policy : NullPolicy) (v : Option Json) :
    v.filter (goesOut policy) = v ∨ (v.filter (goesOut policy) = none ∧ v = some .null) := by
  rcases v with _ | v
  · exact .inl rfl
  · cases v with
    | null =>
      cases policy
      · exact .inl rfl
      · exact .inr ⟨rfl, rfl⟩
    | _ => exact .inl rfl

theorem goesOut_omit : goesOut .omit = isPresent := by
  funext v
  simp [goesOut]

theorem agrees_filter_isPresent (v : Option Json) :
    v.filter isPresent = v ∨ (v.filter isPresent = none ∧ v = some .null) :=
  goesOut_omit ▸ agrees_filter_goesOut .omit v

section Outgoing

variable {policy : NullPolicy} {o : Object}

theorem outgoing?_eq_some_iff {key source : String} {v : Json} :
    outgoing? policy source v = some key ↔
      (source = "id" ∧ key = "_id") ∨ (source = "revision" ∧ isPresent v ∧ key = "_rev") ∨
        (source ≠ "id" ∧ source ≠ "revision" ∧ goesOut policy v ∧ source = key) := by
  unfold outgoing? goesOut isPresent
  by_cases h₁ : source = "id"
  · simpa [h₁] using eq_comm
  · by_cases h₂ : source = "revision"
    · cases hv : v.isNull
      · simpa [h₂, hv] using eq_comm
      · simp [h₂]
    · cases v.isNull <;> by_cases hp : policy = .omit <;> simp [h₁, h₂, hp]

/-- The name goes out as `_id`. -/
theorem get?_outgoing_id (hs : o.Sorted) (hid : ∀ m ∈ o, m.1 ≠ "_id") :
    (rename (outgoing? policy) o).get? "_id" = o.get? "id" := by
  rw [get?_rename_single hs "id" fun _ => true]
  · cases o.get? "id" <;> rfl
  · intro m hm
    rw [outgoing?_eq_some_iff]
    simp [hid m hm]

/-- The revision goes out as `_rev`, unless it is null. -/
theorem get?_outgoing_rev (hs : o.Sorted) (hrev : ∀ m ∈ o, m.1 ≠ "_rev") :
    (rename (outgoing? policy) o).get? "_rev" = (o.get? "revision").filter isPresent := by
  refine get?_rename_single hs "revision" isPresent fun m hm => ?_
  rw [outgoing?_eq_some_iff]
  simp [hrev m hm]

/-- Nothing goes out under the names that the domain has for the two. -/
theorem get?_outgoing_domain {key : String} (h : key = "id" ∨ key = "revision") :
    (rename (outgoing? policy) o).get? key = none := by
  refine get?_rename_eq_none fun m _ hm => ?_
  rw [outgoing?_eq_some_iff] at hm
  rcases hm with ⟨-, hk⟩ | ⟨-, -, hk⟩ | ⟨hid, hrev, -, hk⟩
  · rcases h with rfl | rfl <;> exact absurd hk (by decide)
  · rcases h with rfl | rfl <;> exact absurd hk (by decide)
  · rcases h with rfl | rfl
    · exact hid hk
    · exact hrev hk

/-- Any other member goes out as it is, unless it is a null that is left out. -/
theorem get?_outgoing_other (hs : o.Sorted) {key : String} (h₁ : key ≠ "_id") (h₂ : key ≠ "_rev") (h₃ : key ≠ "id")
    (h₄ : key ≠ "revision") : (rename (outgoing? policy) o).get? key = (o.get? key).filter (goesOut policy) := by
  refine get?_rename_single hs key (goesOut policy) fun m _ => ?_
  rw [outgoing?_eq_some_iff]
  constructor
  · rintro (⟨-, hk⟩ | ⟨-, -, hk⟩ | ⟨-, -, hv, hk⟩)
    · exact absurd hk h₁
    · exact absurd hk h₂
    · exact ⟨hk, hv⟩
  · rintro ⟨hk, hv⟩
    exact .inr (.inr ⟨hk ▸ h₃, hk ▸ h₄, hv, hk⟩)

/-- **What an object goes out as, name by name**, if it has no name of the server's. -/
theorem get?_outgoing (hs : o.Sorted) (hplain : ∀ m ∈ o, isSystem m.1 = false) (key : String) :
    (rename (outgoing? policy) o).get? key
      = if key = "_id" then o.get? "id"
        else if key = "_rev" then (o.get? "revision").filter isPresent
        else if key = "id" ∨ key = "revision" then none
        else (o.get? key).filter (goesOut policy) := by
  have hnot : ∀ {stored : String}, isSystem stored = true → ∀ m ∈ o, m.1 ≠ stored := by
    rintro stored hstored m hm rfl
    exact absurd hstored (by simp [hplain m hm])
  by_cases hid : key = "_id"
  · rw [if_pos hid, hid, get?_outgoing_id hs (hnot (by decide))]
  · rw [if_neg hid]
    by_cases hrev : key = "_rev"
    · rw [if_pos hrev, hrev, get?_outgoing_rev hs (hnot (by decide))]
    · rw [if_neg hrev]
      by_cases hdomain : key = "id" ∨ key = "revision"
      · rw [if_pos hdomain, get?_outgoing_domain hdomain]
      · rw [if_neg hdomain]
        obtain ⟨hid', hrev'⟩ := not_or.1 hdomain
        exact get?_outgoing_other hs hid hrev hid' hrev'

end Outgoing

section Incoming

variable {classField : Option String} {wire : Object}

theorem incoming?_eq_some_iff {key source : String} :
    incoming? classField source = some key ↔
      (source = "_id" ∧ key = "id") ∨ (source = "_rev" ∧ key = "revision") ∨
        (source ≠ "_id" ∧ source ≠ "_rev" ∧ some source ≠ classField ∧ isSystem source = false ∧ source = key) := by
  unfold incoming?
  by_cases h₁ : source = "_id"
  · simpa [h₁] using eq_comm
  · by_cases h₂ : source = "_rev"
    · simpa [h₂] using eq_comm
    · by_cases h₃ : some source = classField
      · simp [h₁, h₂, h₃]
      · cases isSystem source <;> simp [h₁, h₂, h₃]

/-- A member that comes in under its own name. -/
theorem get?_domain_other (hs : wire.Sorted) {key : String} (h₁ : key ≠ "id") (h₂ : key ≠ "revision") :
    (domain classField wire).get? key
      = if some key = classField ∨ isSystem key then none else wire.get? key := by
  have hsys : isSystem "_id" = true ∧ isSystem "_rev" = true := by decide
  split
  · rename_i h
    refine get?_rename_eq_none fun m _ hm => ?_
    rw [incoming?_eq_some_iff] at hm
    rcases hm with ⟨-, hk⟩ | ⟨-, hk⟩ | ⟨-, -, hc, hu, hk⟩
    · exact h₁ hk
    · exact h₂ hk
    · rcases h with h | h
      · exact hc (hk ▸ h)
      · simp [hk, h] at hu
  · rename_i h
    rw [not_or] at h
    have hid : key ≠ "_id" := fun hk => h.2 (hk ▸ hsys.1)
    have hrev : key ≠ "_rev" := fun hk => h.2 (hk ▸ hsys.2)
    rw [domain, get?_rename_single hs key fun _ => true]
    · cases wire.get? key <;> rfl
    · intro m _
      rw [incoming?_eq_some_iff]
      constructor
      · rintro (⟨-, hk⟩ | ⟨-, hk⟩ | ⟨-, -, -, -, hk⟩)
        · exact absurd hk h₁
        · exact absurd hk h₂
        · exact ⟨hk, rfl⟩
      · rintro ⟨rfl, -⟩
        exact .inr (.inr ⟨hid, hrev, h.1, by simpa using h.2, rfl⟩)

/-- A member that gets a name of the domain is one that the server has for it, or has the name itself. -/
theorem incoming?_eq_renamed_iff {key stored source : String}
    (h : (key = "id" ∧ stored = "_id") ∨ (key = "revision" ∧ stored = "_rev")) :
    incoming? classField source = some key ↔ source = stored ∨ (source = key ∧ some key ≠ classField) := by
  rw [incoming?_eq_some_iff]
  rcases h with ⟨rfl, rfl⟩ | ⟨rfl, rfl⟩
  · have hsys : isSystem "id" = false := by decide
    constructor
    · rintro (⟨hs, -⟩ | ⟨-, hk⟩ | ⟨-, -, hc, -, hk⟩)
      · exact .inl hs
      · exact absurd hk (by decide)
      · exact .inr ⟨hk, hk ▸ hc⟩
    · rintro (hs | ⟨rfl, hc⟩)
      · exact .inl ⟨hs, rfl⟩
      · exact .inr (.inr ⟨by decide, by decide, hc, hsys, rfl⟩)
  · have hsys : isSystem "revision" = false := by decide
    constructor
    · rintro (⟨-, hk⟩ | ⟨hs, -⟩ | ⟨-, -, hc, -, hk⟩)
      · exact absurd hk (by decide)
      · exact .inl hs
      · exact .inr ⟨hk, hk ▸ hc⟩
    · rintro (hs | ⟨rfl, hc⟩)
      · exact .inr (.inl ⟨hs, rfl⟩)
      · exact .inr (.inr ⟨by decide, by decide, hc, hsys, rfl⟩)

/-- What comes in under `id` or `revision`: the member of that name, or else the one that the server has for it. -/
theorem get?_domain_renamed (hs : wire.Sorted) {key stored : String}
    (h : (key = "id" ∧ stored = "_id") ∨ (key = "revision" ∧ stored = "_rev")) :
    (domain classField wire).get? key
      = (if some key = classField then none else wire.get? key).or (wire.get? stored) := by
  have hlt : stored < key := by rcases h with ⟨rfl, rfl⟩ | ⟨rfl, rfl⟩ <;> decide
  by_cases hc : some key = classField
  · rw [if_pos hc, domain, get?_rename_single hs stored fun _ => true]
    · cases wire.get? stored <;> rfl
    · intro m _
      rw [incoming?_eq_renamed_iff h]
      simp [hc]
  · have hfilter : wire.filter (fun m => incoming? classField m.1 = some key)
        = wire.filter fun m => m.1 = stored || m.1 = key := by
      refine List.filter_congr fun m _ => ?_
      rw [Bool.eq_iff_iff, Bool.or_eq_true, decide_eq_true_iff, decide_eq_true_iff, decide_eq_true_iff,
        incoming?_eq_renamed_iff h]
      simp [hc]
    rw [if_neg hc, domain, get?_rename, hfilter, Table.filter_two_keys hs hlt, List.getLast?_append,
      Table.filter_key hs, Table.filter_key hs]
    cases wire.get? key <;> cases wire.get? stored <;> rfl

/-- Where there is nothing of its own under `id` or `revision`, but perhaps the class, the server's member comes in. -/
theorem get?_domain_moved (hs : wire.Sorted) {key stored : String}
    (h : (key = "id" ∧ stored = "_id") ∨ (key = "revision" ∧ stored = "_rev"))
    (habsent : some key ≠ classField → wire.get? key = none) :
    (domain classField wire).get? key = wire.get? stored := by
  rw [get?_domain_renamed hs h]
  split
  · rfl
  · rename_i hne
    rw [habsent hne, Option.none_or]

/-- No member comes in under a name of the server's. -/
theorem isSystem_of_mem_domain (hs : wire.Sorted) {m : String × Json} (hm : m ∈ domain classField wire) :
    isSystem m.1 = false := by
  by_contra hsystem
  rw [Bool.not_eq_false] at hsystem
  have hid : m.1 ≠ "id" := fun heq => absurd hsystem (by rw [heq]; decide)
  have hrev : m.1 ≠ "revision" := fun heq => absurd hsystem (by rw [heq]; decide)
  have hget := (Table.get?_eq_some_iff (sorted_rename _ _)).2 hm
  rw [← domain, get?_domain_other hs hid hrev, if_pos (.inr hsystem)] at hget
  exact nomatch hget

end Incoming

/-- The members that the server looks after are nothing to what is decoded. -/
theorem decode_split {α : Type} (r : Reader α) (classField : String) (document : Object) :
    decode r classField (split document).2 = decode r classField document := by
  have hleft : ∀ m ∈ document, (isSystem m.1 && m.1 != "_id" && m.1 != "_rev") = true →
      incoming? (some classField) m.1 = none := by
    intro m _ hm
    simp only [Bool.and_eq_true, bne_iff_ne, ne_eq] at hm
    simp [incoming?, hm]
  have hdomain : domain (some classField) (split document).2 = domain (some classField) document := by
    rw [split, List.partition_eq_filter_filter, domain, domain, rename, rename, List.filterMap_filter]
    refine congrArg Table.ofList (List.filterMap_congr fun m hm => ?_)
    cases hsystem : (isSystem m.1 && m.1 != "_id" && m.1 != "_rev") with
    | false => simp [hsystem]
    | true => simp [hsystem, hleft m hm hsystem]
  rw [decode, decode, hdomain]

end Envelope
end DocClient
