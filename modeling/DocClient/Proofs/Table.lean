/-
# Looking up in tables

What a table has under a key, for tables built of entries and for tables in order:

| table | under `key` |
| --- | --- |
| `ofList entries` | the last of the entries with that key (`get?_ofList`) |
| `ofOptions entries`, no key twice | the value of the entry with that key, if it has one (`get?_ofOptions`) |
| one in order | the value of the only entry with that key (`get?_eq_some_iff`) |

A table in order is what its entries build (`ofList_eq_self`), so a value that is taken apart and put together again is
the same value; and it is told apart from other tables in order by what is found in it (`ext`).
-/

import DocClient.Table
import Mathlib.Data.List.Induction

namespace DocClient
namespace Table

variable {α β : Type}

/-- What is found under a key is an entry. -/
theorem mem_of_get?_eq_some {key : String} {value : α} {t : Table α} (h : t.get? key = some value) :
    (key, value) ∈ t := by
  induction t with
  | nil => simp [get?] at h
  | cons e rest ih =>
    obtain ⟨k, v⟩ := e
    simp only [get?] at h
    split at h
    · rename_i hk
      subst hk
      obtain rfl := Option.some.inj h
      exact List.mem_cons_self ..
    · exact List.mem_cons_of_mem _ (ih h)

/-- A key without an entry has no value. -/
theorem get?_eq_none {key : String} {t : Table α} (h : ∀ e ∈ t, e.1 ≠ key) : t.get? key = none := by
  cases hg : t.get? key with
  | none => rfl
  | some v => exact absurd rfl (h _ (mem_of_get?_eq_some hg))

/-- **In a table in order the entries are what is found.** -/
theorem get?_eq_some_iff {t : Table α} (h : Sorted t) {key : String} {value : α} :
    t.get? key = some value ↔ (key, value) ∈ t := by
  refine ⟨mem_of_get?_eq_some, fun hm => ?_⟩
  induction t with
  | nil => simp at hm
  | cons e rest ih =>
    obtain ⟨k, v⟩ := e
    obtain ⟨hk, hrest⟩ := List.pairwise_cons.1 h
    rcases List.mem_cons.1 hm with heq | hm
    · obtain ⟨rfl, rfl⟩ := Prod.mk.inj heq
      simp [get?]
    · have hne : k ≠ key := fun heq => String.lt_irrefl _ (heq ▸ hk _ hm)
      simp [get?, hne, ih hrest hm]

/-- Whether a table is in order can be seen from its keys. -/
instance decidableSorted (t : Table α) : Decidable (Sorted t) :=
  inferInstanceAs (Decidable (List.Pairwise _ t))

/-- In a table in order no entry stands twice. -/
theorem nodup_of_sorted {t : Table α} (h : Sorted t) : t.Nodup := by
  refine List.Pairwise.imp (fun {a b} hlt => ?_) h
  rintro rfl
  exact String.lt_irrefl _ hlt

/-- **Tables in order that agree under every key are the same.** -/
theorem ext {t u : Table α} (ht : Sorted t) (hu : Sorted u) (h : ∀ key, t.get? key = u.get? key) : t = u := by
  have hmem : ∀ e, e ∈ t ↔ e ∈ u := by
    intro e
    rw [← get?_eq_some_iff ht, h, get?_eq_some_iff hu]
  have hperm : t.Perm u := (List.perm_ext_iff_of_nodup (nodup_of_sorted ht) (nodup_of_sorted hu)).2 hmem
  exact List.Perm.eq_of_pairwise (fun _ _ _ _ hab hba => absurd (String.lt_trans hab hba) (String.lt_irrefl _)) ht hu
    hperm

/-- Entries are put in one after the other. -/
theorem ofList_append (entries : List (String × α)) (e : String × α) :
    ofList (entries ++ [e]) = (ofList entries).insert e.1 e.2 := by
  simp [ofList, List.foldl_append]

/-- **Of two entries under one key the later one is found.** -/
theorem get?_ofList (key : String) (entries : List (String × α)) :
    (ofList entries).get? key = entries.reverse.lookup key := by
  induction entries using List.reverseRecOn with
  | nil => rfl
  | append_singleton entries e ih =>
    rw [ofList_append, get?_insert, List.reverse_append, List.reverse_singleton, List.singleton_append,
      List.lookup_cons, ih]
    by_cases h : key = e.1
    · simp [h]
    · simp [h, beq_false_of_ne h]

/-- **Where no key stands twice, the entry under a key is found**, if it has a value. -/
theorem get?_ofOptions {entries : List (String × Option α)} (h : (entries.map Prod.fst).Nodup) (key : String) :
    (ofOptions entries).get? key = (entries.lookup key).join := by
  induction entries using List.reverseRecOn with
  | nil => rfl
  | append_singleton entries e ih =>
    obtain ⟨k, v⟩ := e
    rw [List.map_append, List.map_singleton, List.nodup_append] at h
    obtain ⟨hentries, -, hk⟩ := h
    have hnone : entries.lookup k = none :=
      List.lookup_eq_none_iff.2 fun e he => by simpa using Ne.symm (hk _ (List.mem_map_of_mem he) _ (by simp))
    have hput : ofOptions (entries ++ [(k, v)]) = v.elim (ofOptions entries) ((ofOptions entries).insert k) := by
      cases v <;> simp [ofOptions, List.filterMap_append, ofList_append (α := α) _ (_, _)]
    rw [hput, List.lookup_append]
    by_cases hkey : key = k
    · subst hkey
      rw [hnone]
      cases v with
      | none => simp [ih hentries, hnone]
      | some v => simp [get?_insert]
    · have hrest : [(k, v)].lookup key = none := by simp [List.lookup_cons, beq_false_of_ne hkey]
      rw [hrest, Option.or_none]
      cases v with
      | none => simp [ih hentries]
      | some v => simp [get?_insert, hkey, ih hentries]

/-- A table has no entries but those that it is built of. -/
theorem mem_of_mem_ofList {e : String × α} {entries : List (String × α)} (h : e ∈ ofList entries) : e ∈ entries := by
  have hg := (get?_eq_some_iff (sorted_ofList entries)).2 h
  rw [get?_ofList] at hg
  obtain ⟨before, after, heq, -⟩ := List.lookup_eq_some_iff.1 hg
  exact List.mem_reverse.1 (heq ▸ by simp)

/-- An entry after all others goes to the end. -/
theorem insert_of_forall_lt {key : String} {value : α} {t : Table α} (h : ∀ e ∈ t, e.1 < key) :
    t.insert key value = t ++ [(key, value)] := by
  induction t with
  | nil => rfl
  | cons e rest ih =>
    obtain ⟨k, v⟩ := e
    have hk : k < key := h _ (List.mem_cons_self ..)
    have hne : key ≠ k := fun heq => String.lt_irrefl _ (heq ▸ hk)
    have hnlt : ¬ key < k := fun hlt => String.lt_irrefl _ (String.lt_trans hlt hk)
    simp only [insert, hnlt, hne, if_false, List.cons_append]
    rw [ih fun e he => h e (List.mem_cons_of_mem _ he)]

/-- **A table in order is built of its entries.** -/
theorem ofList_eq_self {t : Table α} (h : Sorted t) : ofList t = t := by
  induction t using List.reverseRecOn with
  | nil => rfl
  | append_singleton t e ih =>
    obtain ⟨ht, -, hlt⟩ := List.pairwise_append.1 h
    rw [ofList_append, ih ht]
    exact insert_of_forall_lt fun d hd => hlt d hd e (List.mem_singleton_self e)

/-- Of a table in order, the entries under one key are the one that is found. -/
theorem filter_key {t : Table α} (h : Sorted t) (key : String) :
    t.filter (fun e => e.1 = key) = ((t.get? key).map fun value => (key, value)).toList := by
  induction t with
  | nil => rfl
  | cons e rest ih =>
    obtain ⟨k, v⟩ := e
    obtain ⟨hk, hrest⟩ := List.pairwise_cons.1 h
    by_cases heq : k = key
    · subst heq
      have hnone : rest.filter (fun e => e.1 = k) = [] := by
        refine List.filter_eq_nil_iff.2 fun e he heq => ?_
        exact String.lt_irrefl _ (of_decide_eq_true heq ▸ hk e he)
      simp [get?, hnone]
    · simp [get?, heq, ih hrest]

/-- Of a table in order, the entry under the lesser of two keys comes first. -/
theorem filter_two_keys {t : Table α} (h : Sorted t) {first second : String} (hlt : first < second) :
    t.filter (fun e => e.1 = first || e.1 = second)
      = t.filter (fun e => e.1 = first) ++ t.filter (fun e => e.1 = second) := by
  induction t with
  | nil => rfl
  | cons e rest ih =>
    obtain ⟨k, v⟩ := e
    obtain ⟨hk, hrest⟩ := List.pairwise_cons.1 h
    have hne : first ≠ second := fun heq => String.lt_irrefl _ (heq ▸ hlt)
    by_cases h₁ : k = first
    · subst h₁
      simp [hne, ih hrest]
    · by_cases h₂ : k = second
      · subst h₂
        have hnone : rest.filter (fun e => e.1 = first) = [] := by
          refine List.filter_eq_nil_iff.2 fun e he heq => ?_
          exact String.lt_irrefl _ (String.lt_trans hlt (of_decide_eq_true heq ▸ hk e he))
        simp [h₁, ih hrest, hnone]
      · simp [h₁, h₂, ih hrest]

/-- Entries that are left out leave an order. -/
theorem sorted_filter {t : Table α} (h : Sorted t) (keep : String × α → Bool) : Sorted (t.filter keep) :=
  List.Pairwise.filter keep h

/-- What is found among the entries that are kept. -/
theorem get?_filter {t : Table α} (h : Sorted t) (keep : String × α → Bool) (key : String) :
    Table.get? key (t.filter keep) = (t.get? key).filter fun value => keep (key, value) := by
  refine Option.ext fun value => ?_
  rw [get?_eq_some_iff (sorted_filter h keep), List.mem_filter, Option.filter_eq_some_iff, get?_eq_some_iff h]

end Table
end DocClient
