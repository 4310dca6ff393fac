/-
# Values as drafts

A value that is already there can be read like a text: it is a draft that does not break off (`Draft.ofJson`). Reading
it as any value gives it back (`Reader.json_ofJson`), as only a text bounds how deep a value may nest; and it never
gives another one (`Reader.eq_of_json_ofJson`).

The law rests on the order of members: of the members of an object the reader builds a table, and that is the object
itself where the object is in order. Whatever is read is in order (`Reader.canonical_of_json`).
-/

import DocClient.Json.Reader
import DocClient.Proofs.Outcome
import DocClient.Proofs.Table

namespace DocClient

namespace Json

/-- A member of a canonical object is canonical. -/
theorem CanonicalMembers.of_mem {o : Object} (h : CanonicalMembers o) {m : String × Json} (hm : m ∈ o) :
    m.2.Canonical := by
  induction o with
  | nil => simp at hm
  | cons e rest ih =>
    obtain ⟨k, v⟩ := e
    rw [CanonicalMembers] at h
    rcases List.mem_cons.1 hm with rfl | hm
    · exact h.1
    · exact ih h.2 hm

/-- Members are canonical when each of them is. -/
theorem canonicalMembers_of_forall {o : Object} (h : ∀ m ∈ o, m.2.Canonical) : CanonicalMembers o := by
  induction o with
  | nil => trivial
  | cons e rest ih =>
    obtain ⟨k, v⟩ := e
    rw [CanonicalMembers]
    exact ⟨h (k, v) (List.mem_cons_self ..), ih fun m hm => h m (List.mem_cons_of_mem _ hm)⟩

/-- A canonical member put into a canonical object leaves it canonical. -/
theorem CanonicalMembers.insert {o : Object} (h : CanonicalMembers o) (hs : o.Sorted) {v : Json} (hv : v.Canonical)
    (key : String) : CanonicalMembers (o.insert key v) := by
  refine canonicalMembers_of_forall fun m hm => ?_
  have hget := (Table.get?_eq_some_iff (Table.sorted_insert hs)).2 hm
  rw [Table.get?_insert] at hget
  split at hget
  · exact Option.some.inj hget ▸ hv
  · exact h.of_mem (Table.mem_of_get?_eq_some hget)

/-- The text that is found is that of a string. -/
theorem bind_str?_eq_some {found : Option Json} {s : String} : found.bind str? = some s ↔ found = some (.str s) := by
  rcases found with _ | _ | _ | _ | _ | _ | _ <;> simp [str?]

theorem canonical_ofStrings (texts : List String) : (ofStrings texts).Canonical := by
  rw [ofStrings, Canonical]
  induction texts with
  | nil => trivial
  | cons s rest ih => exact ⟨trivial, ih⟩

end Json

namespace Draft

mutual

/-- A value does not break off. -/
theorem intact_ofJson : ∀ v : Json, (ofJson v).intact = true
  | .arr items => by simp [ofJson, intact, intactItems_ofItems items]
  | .obj members => by simp [ofJson, intact, intactMembers_ofMembers members]
  | .null => rfl
  | .bool _ => rfl
  | .num _ => rfl
  | .str _ => rfl

theorem intactItems_ofItems : ∀ items : List Json, intactItems (ofItems items) = true
  | [] => rfl
  | v :: rest => by simp [ofItems, intactItems, intact_ofJson v, intactItems_ofItems rest]

theorem intactMembers_ofMembers : ∀ members : List (String × Json), intactMembers (ofMembers members) = true
  | [] => rfl
  | (_, v) :: rest => by simp [ofMembers, intactMembers, intact_ofJson v, intactMembers_ofMembers rest]

end

/-- The draft of a member is found where the member is. -/
theorem lookup_ofMembers (name : String) (o : Object) :
    (ofMembers o).lookup (some name) = (o.get? name).map ofJson := by
  induction o with
  | nil => rfl
  | cons e rest ih =>
    obtain ⟨k, v⟩ := e
    rw [ofMembers, List.lookup_cons, Table.get?, ih]
    by_cases h : k = name
    · simp [h]
    · simp [h, beq_false_of_ne (Ne.symm h)]

end Draft

namespace Reader

mutual

/-- **A value reads as itself**, wherever nesting has no bound. -/
theorem json_ofJson {o : Origin} (ho : o.enter = .ok o) : ∀ {v : Json}, v.Canonical → json o (Draft.ofJson v) = .ok v
  | .null, _ => rfl
  | .bool _, _ => rfl
  | .num _, _ => rfl
  | .str _, _ => rfl
  | .arr items, hc => by simp [Draft.ofJson, json, ho, jsonItems_ofItems ho hc, whole]
  | .obj members, hc => by
    rw [Json.Canonical] at hc
    simp [Draft.ofJson, json, ho, jsonMembers_ofMembers ho hc.2, whole, Table.ofList_eq_self hc.1]

theorem jsonItems_ofItems {o : Origin} (ho : o.enter = .ok o) :
    ∀ {items : List Json}, Json.CanonicalItems items → jsonItems o (Draft.ofItems items) = .ok items
  | [], _ => rfl
  | v :: rest, hc => by
    rw [Json.CanonicalItems] at hc
    simp [Draft.ofItems, jsonItems, json_ofJson ho hc.1, jsonItems_ofItems ho hc.2]

theorem jsonMembers_ofMembers {o : Origin} (ho : o.enter = .ok o) :
    ∀ {members : List (String × Json)}, Json.CanonicalMembers members →
      jsonMembers o (Draft.ofMembers members) = .ok members
  | [], _ => rfl
  | (k, v) :: rest, hc => by
    rw [Json.CanonicalMembers] at hc
    simp [Draft.ofMembers, jsonMembers, key, json_ofJson ho hc.1, jsonMembers_ofMembers ho hc.2]

end

/-- An object reads as itself. -/
theorem object_ofJson {o : Origin} (ho : o.enter = .ok o) {members : Object} (hs : members.Sorted)
    (hc : Json.CanonicalMembers members) : object o (Draft.ofJson (.obj members)) = .ok members := by
  simp [Draft.ofJson, object, ho, jsonMembers_ofMembers ho hc, whole, Table.ofList_eq_self hs]

mutual

/-- A value reads as nothing but itself. -/
theorem eq_of_json_ofJson {o : Origin} : ∀ {v w : Json}, v.Canonical → json o (Draft.ofJson v) = .ok w → w = v
  | .null, w, _, h | .bool _, w, _, h | .num _, w, _, h | .str _, w, _, h => (Except.ok.inj h).symm
  | .arr items, w, hc, h => by
    obtain ⟨o', -, h⟩ := Outcome.bind_eq_ok.1 h
    obtain ⟨values, hv, h⟩ := Outcome.bind_eq_ok.1 h
    obtain ⟨-, -, h⟩ := Outcome.bind_eq_ok.1 h
    rw [← Except.ok.inj h, eq_of_jsonItems_ofItems hc hv]
  | .obj members, w, hc, h => by
    obtain ⟨o', -, h⟩ := Outcome.bind_eq_ok.1 h
    obtain ⟨entries, he, h⟩ := Outcome.bind_eq_ok.1 h
    obtain ⟨-, -, h⟩ := Outcome.bind_eq_ok.1 h
    rw [← Except.ok.inj h, eq_of_jsonMembers_ofMembers hc.2 he, Table.ofList_eq_self hc.1]

theorem eq_of_jsonItems_ofItems {o : Origin} : ∀ {items values : List Json}, Json.CanonicalItems items →
    jsonItems o (Draft.ofItems items) = .ok values → values = items
  | [], values, _, h => (Except.ok.inj h).symm
  | v :: rest, values, hc, h => by
    obtain ⟨w, hw, h⟩ := Outcome.bind_eq_ok.1 h
    obtain ⟨more, hmore, h⟩ := Outcome.bind_eq_ok.1 h
    rw [← Except.ok.inj h, eq_of_json_ofJson hc.1 hw, eq_of_jsonItems_ofItems hc.2 hmore]

theorem eq_of_jsonMembers_ofMembers {o : Origin} : ∀ {members entries : List (String × Json)},
    Json.CanonicalMembers members → jsonMembers o (Draft.ofMembers members) = .ok entries → entries = members
  | [], entries, _, h => (Except.ok.inj h).symm
  | (k, v) :: rest, entries, hc, h => by
    obtain ⟨name, hk, h⟩ := Outcome.bind_eq_ok.1 h
    obtain ⟨w, hw, h⟩ := Outcome.bind_eq_ok.1 h
    obtain ⟨more, hmore, h⟩ := Outcome.bind_eq_ok.1 h
    rw [← Except.ok.inj h, ← Except.ok.inj hk, eq_of_json_ofJson hc.1 hw, eq_of_jsonMembers_ofMembers hc.2 hmore]

end

mutual

/-- **What is read is canonical.** -/
theorem canonical_of_json {o : Origin} : ∀ {d : Draft} {v : Json}, json o d = .ok v → v.Canonical
  | .null, v, h | .bool _, v, h | .num _, v, h | .str _, v, h => by
    obtain rfl := Except.ok.inj h
    trivial
  | .arr items closed, v, h => by
    obtain ⟨o', -, h⟩ := Outcome.bind_eq_ok.1 h
    obtain ⟨values, hv, h⟩ := Outcome.bind_eq_ok.1 h
    obtain ⟨-, -, h⟩ := Outcome.bind_eq_ok.1 h
    obtain rfl := Except.ok.inj h
    exact canonical_of_jsonItems hv
  | .obj members closed, v, h => by
    obtain ⟨o', -, h⟩ := Outcome.bind_eq_ok.1 h
    obtain ⟨entries, he, h⟩ := Outcome.bind_eq_ok.1 h
    obtain ⟨-, -, h⟩ := Outcome.bind_eq_ok.1 h
    obtain rfl := Except.ok.inj h
    exact ⟨Table.sorted_ofList entries,
      Json.canonicalMembers_of_forall fun m hm => canonical_of_jsonMembers he m (Table.mem_of_mem_ofList hm)⟩
  | .unreadable, v, h | .broken, v, h => by cases h

theorem canonical_of_jsonItems {o : Origin} : ∀ {items : List Draft} {values : List Json},
    jsonItems o items = .ok values → Json.CanonicalItems values
  | [], values, h => by
    obtain rfl := Except.ok.inj h
    trivial
  | d :: rest, values, h => by
    obtain ⟨v, hv, h⟩ := Outcome.bind_eq_ok.1 h
    obtain ⟨values, hrest, h⟩ := Outcome.bind_eq_ok.1 h
    obtain rfl := Except.ok.inj h
    exact ⟨canonical_of_json hv, canonical_of_jsonItems hrest⟩

theorem canonical_of_jsonMembers {o : Origin} : ∀ {members : List (Option String × Draft)}
    {entries : List (String × Json)}, jsonMembers o members = .ok entries → ∀ e ∈ entries, e.2.Canonical
  | [], entries, h => by
    obtain rfl := Except.ok.inj h
    exact fun e he => absurd he List.not_mem_nil
  | (k, d) :: rest, entries, h => by
    obtain ⟨name, -, h⟩ := Outcome.bind_eq_ok.1 h
    obtain ⟨v, hv, h⟩ := Outcome.bind_eq_ok.1 h
    obtain ⟨entries, hrest, h⟩ := Outcome.bind_eq_ok.1 h
    obtain rfl := Except.ok.inj h
    exact List.forall_mem_cons.2 ⟨canonical_of_json hv, canonical_of_jsonMembers hrest⟩

end

/-- An object that was read is canonical. -/
theorem canonical_of_object {o : Origin} {d : Draft} {members : Object} (h : object o d = .ok members) :
    members.Sorted ∧ Json.CanonicalMembers members := by
  have hjson : json o d = .ok (.obj members) := by
    cases d with
    | obj drafts closed =>
      obtain ⟨o', ho, h⟩ := Outcome.bind_eq_ok.1 h
      obtain ⟨entries, he, h⟩ := Outcome.bind_eq_ok.1 h
      obtain ⟨u, hw, h⟩ := Outcome.bind_eq_ok.1 h
      obtain rfl := Except.ok.inj h
      simp [json, ho, he, hw]
    | _ => cases h
  exact canonical_of_json hjson

end Reader
end DocClient
