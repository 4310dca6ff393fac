/-
# Tables from texts to values

A table is a list of entries in ascending order of their keys by code point, each key once. That is also the order of
the keys by UTF-8 bytes. Tables are built by insertion, so the order is kept (`Table.Sorted`).
-/

namespace DocClient

/-- Entries under texts, in ascending order of the texts. -/
abbrev Table (α : Type) := List (String × α)

namespace Table

variable {α : Type}

/-- The value under a key. -/
def get? (key : String) : Table α → Option α
  | [] => none
  | (k, v) :: rest => if k = key then some v else get? key rest

/-- A table has a key. -/
def contains (key : String) (t : Table α) : Bool := (t.get? key).isSome

/-- Puts a value under a key, in place of the one that was there. -/
def insert (key : String) (value : α) : Table α → Table α
  | [] => [(key, value)]
  | (k, v) :: rest =>
    if key < k then (key, value) :: (k, v) :: rest
    else if key = k then (key, value) :: rest
    else (k, v) :: insert key value rest

/-- The table with given entries; of two under one key the later one stays. -/
def ofList (entries : List (String × α)) : Table α :=
  entries.foldl (fun t e => insert e.1 e.2 t) []

/-- The table with those of the given entries that have a value. -/
def ofOptions (entries : List (String × Option α)) : Table α :=
  ofList (entries.filterMap fun e => e.2.map fun v => (e.1, v))

/-- The keys of a table stand in ascending order, each once. -/
def Sorted (t : Table α) : Prop := t.Pairwise fun a b => a.1 < b.1

/-- Of two different texts that are not in order, the second comes first. -/
theorem lt_of_not_lt {a b : String} (h : ¬ a < b) (hne : a ≠ b) : b < a :=
  Std.lt_of_le_of_ne (String.not_lt.1 h) (Ne.symm hne)

/-- The key that was put in has the value that was put in, and every other key what it had before. -/
theorem get?_insert (key other : String) (value : α) (t : Table α) :
    (t.insert key value).get? other = if other = key then some value else t.get? other := by
  induction t with
  | nil => simp [insert, get?, eq_comm]
  | cons e rest ih =>
    obtain ⟨k, v⟩ := e
    simp only [insert]
    by_cases h : other = key
    · subst h
      split
      · simp [get?]
      · split
        · simp [get?]
        · rename_i hne
          simp [get?, Ne.symm hne, ih]
    · split
      · simp [get?, Ne.symm h]
      · split
        · rename_i heq
          subst heq
          simp [get?, Ne.symm h]
        · simp [get?, ih, h]

/-- The keys after putting one in are that one and those from before. -/
theorem mem_keys_insert {key k : String} {value : α} {t : Table α} :
    k ∈ (t.insert key value).map Prod.fst ↔ k = key ∨ k ∈ t.map Prod.fst := by
  induction t with
  | nil => simp [insert]
  | cons e rest ih =>
    obtain ⟨k', v⟩ := e
    simp only [insert]
    split
    · simp
    · split
      · rename_i heq
        subst heq
        simp
      · simp only [List.map_cons, List.mem_cons, ih]
        exact or_left_comm

/-- Putting a value in keeps the order. -/
theorem sorted_insert {key : String} {value : α} {t : Table α} (h : Sorted t) : Sorted (t.insert key value) := by
  induction t with
  | nil => simp [insert, Sorted]
  | cons e rest ih =>
    obtain ⟨k, v⟩ := e
    obtain ⟨hk, hrest⟩ := List.pairwise_cons.1 h
    simp only [insert]
    split
    · rename_i hlt
      refine List.pairwise_cons.2 ⟨?_, h⟩
      intro b hb
      rcases List.mem_cons.1 hb with rfl | hb
      · exact hlt
      · exact String.lt_trans hlt (hk b hb)
    · split
      · rename_i heq
        subst heq
        exact List.pairwise_cons.2 ⟨hk, hrest⟩
      · rename_i hlt hne
        refine List.pairwise_cons.2 ⟨?_, ih hrest⟩
        intro b hb
        rcases mem_keys_insert.1 (List.mem_map_of_mem hb) with hb | hb
        · exact hb ▸ lt_of_not_lt hlt hne
        · obtain ⟨c, hc, hcb⟩ := List.mem_map.1 hb
          exact hcb ▸ hk c hc

/-- A table built of entries is in order. -/
theorem sorted_ofList (entries : List (String × α)) : Sorted (ofList entries) := by
  suffices ∀ (es : List (String × α)) (t : Table α), Sorted t →
      Sorted (es.foldl (fun t e => insert e.1 e.2 t) t) from this entries [] List.Pairwise.nil
  intro es
  induction es with
  | nil => exact fun _ h => h
  | cons e rest ih => exact fun t h => ih _ (sorted_insert h)

end Table
end DocClient
