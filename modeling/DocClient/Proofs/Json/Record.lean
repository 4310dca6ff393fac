/-
# Records read off objects

A record is read off an object in two passes: every member that is a field is looked at in the order of the keys, and
then the fields are read by name. Where the second pass succeeds the first finds nothing to object to
(`Fields.Checked`), so of an object that is there only what it has under the names of the fields counts
(`Reader.record_ofJson_obj`), not the order of its members nor what else it has.

A record that was written is read back one field at a time (`Fields.Gives`, `Reader.record_of_gives`): for each field it
is to be seen what the written object has under its name, and that the reader of the field reads it.
-/

import DocClient.Json.Record
import DocClient.Proofs.Json.Readers

namespace DocClient

/-- The parts of a record as an object has them. -/
def Cells.ofObject (o : Object) (origin : Origin) : Cells where
  find name := (o.get? name).map Draft.ofJson
  missing := .missingField
  positional := false
  origin

namespace Fields

variable {α β : Type}

/-- A part that was read is one that will do. -/
def Checked (f : Fields α) : Prop :=
  ∀ cells a, f.build cells = .ok a → ∀ p ∈ f.table, ∀ d, cells.find p.1 = some d → p.2 cells.origin d = .ok ()

theorem checked_single {name : String} {r : Reader α} {absent : Cells → Except ReadError α} :
    (single name r absent).Checked := by
  intro cells a h p hp d hd
  obtain rfl := List.mem_singleton.1 hp
  simp only [single, hd] at h
  simp [h]

theorem checked_field {name : String} {r : Reader α} : (field name r).Checked := checked_single

theorem checked_optional {name : String} {r : Reader α} : (optional name r).Checked := checked_single

theorem checked_defaulted {name : String} {r : Reader α} {value : α} : (defaulted name r value).Checked :=
  checked_single

theorem checked_nullable {name : String} {r : Reader α} : (nullable name r).Checked := checked_single

theorem Checked.seq {f : Fields (α → β)} {x : Fields α} (hf : f.Checked) (hx : x.Checked) : (f <*> x).Checked := by
  intro cells b h p hp d hd
  obtain ⟨g, hg, h⟩ := Outcome.bind_eq_ok.1 h
  obtain ⟨a, ha, -⟩ := Outcome.bind_eq_ok.1 h
  rcases List.mem_append.1 hp with hp | hp
  · exact hf cells g hg p hp d hd
  · exact hx cells a ha p hp d hd

theorem Checked.map {x : Fields α} (hx : x.Checked) (g : α → β) : (g <$> x).Checked :=
  Checked.seq (fun _ _ _ _ hp => absurd hp List.not_mem_nil) hx

@[simp] theorem build_seq (f : Fields (α → β)) (x : Fields α) (cells : Cells) :
    (f <*> x).build cells = f.build cells >>= fun g => x.build cells >>= fun a => .ok (g a) := rfl

@[simp] theorem build_map (g : α → β) (x : Fields α) (cells : Cells) :
    (g <$> x).build cells = x.build cells >>= fun a => .ok (g a) := rfl

section Off

variable {name : String} {r : Reader α} {o : Object}

theorem build_field {a : α} :
    (field name r).build (.ofObject o .value) = .ok a ↔ ∃ v, o.get? name = some v ∧ r.ofJson v = .ok a := by
  simp only [field, single, Cells.ofObject]
  cases o.get? name <;> simp [Reader.ofJson]

theorem build_defaulted {value a : α} :
    (defaulted name r value).build (.ofObject o .value) = .ok a
      ↔ (o.get? name = none ∧ a = value) ∨ ∃ v, o.get? name = some v ∧ r.ofJson v = .ok a := by
  simp only [defaulted, single, Cells.ofObject]
  cases o.get? name <;> simp [Reader.ofJson, eq_comm]

theorem build_nullable {a : Option α} :
    (nullable name r).build (.ofObject o .value) = .ok a
      ↔ ((o.get? name = none ∨ o.get? name = some .null) ∧ a = none)
        ∨ ∃ v b, o.get? name = some v ∧ v ≠ .null ∧ r.ofJson v = .ok b ∧ a = some b := by
  rw [nullable, build_defaulted]
  cases o.get? name with
  | none => simp
  | some v =>
    have hoption : ∀ v ≠ .null, (Reader.option r).ofJson v = (r.ofJson v).map some := fun _ => Reader.option_ofJson
    by_cases hv : v = .null
    · subst hv
      simp [Reader.ofJson, Draft.ofJson, Reader.option, eq_comm]
    · simp [hoption v hv, hv, Outcome.map_eq_ok, eq_comm (a := a)]

/-- A record is taken from an object: its fields are read from what the object has under their names. -/
structure Gives (o : Object) (f : Fields α) (a : α) : Prop where
  checked : f.Checked
  build_eq : f.build (.ofObject o .value) = .ok a

theorem Gives.map {x : Fields α} {a : α} (hx : x.Gives o a) (g : α → β) : (g <$> x).Gives o (g a) where
  checked := hx.checked.map g
  build_eq := by rw [build_map, hx.build_eq, Outcome.ok_bind]

theorem Gives.seq {f : Fields (α → β)} {g : α → β} {x : Fields α} {a : α} (hf : f.Gives o g) (hx : x.Gives o a) :
    (f <*> x).Gives o (g a) where
  checked := hf.checked.seq hx.checked
  build_eq := by rw [build_seq, hf.build_eq, Outcome.ok_bind, hx.build_eq, Outcome.ok_bind]

/-- A field that has to be there. -/
theorem gives_field {v : Json} {a : α} (hv : o.get? name = some v) (hr : r.ofJson v = .ok a) :
    (field name r).Gives o a :=
  ⟨checked_field, build_field.2 ⟨v, hv, hr⟩⟩

/-- A field with a value to stand for it, which may be left out where it has that value. -/
theorem gives_defaulted {v? : Option Json} {value a : α} (hv : o.get? name = v?) (hnone : v? = none → a = value)
    (hsome : ∀ v, v? = some v → r.ofJson v = .ok a) : (defaulted name r value).Gives o a := by
  refine ⟨checked_defaulted, build_defaulted.2 ?_⟩
  cases v? with
  | none => exact .inl ⟨hv, hnone rfl⟩
  | some v => exact .inr ⟨v, hv, hsome v rfl⟩

/-- A field with a value to stand for it that is written all the same. -/
theorem gives_written {v : Json} {value a : α} (hv : o.get? name = some v) (hr : r.ofJson v = .ok a) :
    (defaulted name r value).Gives o a := by
  refine gives_defaulted hv nofun fun v' hv' => ?_
  obtain rfl := Option.some.inj hv'
  exact hr

/-- A field that is written as null where it is missing. -/
theorem gives_null {write : α → Json} {a : Option α} (hv : o.get? name = some (a.elim .null write))
    (hr : ∀ b, a = some b → write b ≠ .null ∧ r.ofJson (write b) = .ok b) : (nullable name r).Gives o a := by
  refine ⟨checked_nullable, build_nullable.2 ?_⟩
  cases a with
  | none => exact .inl ⟨.inr hv, rfl⟩
  | some b =>
    obtain ⟨hne, hread⟩ := hr b rfl
    exact .inr ⟨write b, b, hv, hne, hread, rfl⟩

/-- A field that is left out where it is missing. -/
theorem gives_nullable {write : α → Json} {a : Option α} (hv : o.get? name = a.map write)
    (hr : ∀ b, a = some b → write b ≠ .null ∧ r.ofJson (write b) = .ok b) : (nullable name r).Gives o a := by
  refine ⟨checked_nullable, build_nullable.2 ?_⟩
  cases a with
  | none => exact .inl ⟨.inl hv, rfl⟩
  | some b =>
    obtain ⟨hne, hread⟩ := hr b rfl
    exact .inr ⟨write b, b, hv, hne, hread, rfl⟩

end Off

end Fields

namespace Reader

variable {α : Type}

/-- Members in order that will do pass. -/
theorem checkMembers_ofMembers {fields : List (String × Reader Unit)} {o : Origin} :
    ∀ {members : Object} {seen : List String}, members.Sorted → (∀ m ∈ members, m.1 ∉ seen) →
      (∀ p ∈ fields, ∀ v, (p.1, v) ∈ members → p.2 o (Draft.ofJson v) = .ok ()) →
        checkMembers fields o seen (Draft.ofMembers members) = .ok ()
  | [], _, _, _, _ => rfl
  | (k, v) :: rest, seen, hs, hseen, hc => by
    obtain ⟨hk, hrest⟩ := List.pairwise_cons.1 hs
    have hc' : ∀ p ∈ fields, ∀ v, (p.1, v) ∈ rest → p.2 o (Draft.ofJson v) = .ok () :=
      fun p hp v hv => hc p hp v (List.mem_cons_of_mem _ hv)
    simp only [Draft.ofMembers, checkMembers, key, Outcome.ok_bind]
    cases hl : fields.lookup k with
    | none =>
      have hseen' : ∀ m ∈ rest, m.1 ∉ seen := fun m hm => hseen m (List.mem_cons_of_mem _ hm)
      simp only [Draft.intact_ofJson, whole, if_true, Outcome.ok_bind]
      exact checkMembers_ofMembers hrest hseen' hc'
    | some check =>
      obtain ⟨before, after, rfl, -⟩ := List.lookup_eq_some_iff.1 hl
      have hd : check o (Draft.ofJson v) = .ok () := hc (k, check) (by simp) v (List.mem_cons_self ..)
      have hk' : ¬ seen.contains k := by simpa using hseen (k, v) (List.mem_cons_self ..)
      have hseen' : ∀ m ∈ rest, m.1 ∉ k :: seen := by
        intro m hm hmem
        rcases List.mem_cons.1 hmem with heq | hmem
        · exact String.lt_irrefl _ (heq ▸ hk m hm)
        · exact hseen m (List.mem_cons_of_mem _ hm) hmem
      simp only [hk', Bool.false_eq_true, if_false, hd, Outcome.ok_bind]
      exact checkMembers_ofMembers hrest hseen' hc'

/-- An object is read in two passes. -/
theorem record_ofJson_eq {expected : String} {f : Fields α} {o o' : Origin} (ho : o.enter = .ok o')
    (members : Object) : record expected f o (Draft.ofJson (.obj members))
      = checkMembers f.table o' [] (Draft.ofMembers members) >>= fun _ => f.build (.ofObject members o') := by
  simp only [Draft.ofJson, record, ho, Outcome.ok_bind, whole, if_true]
  have hcells : (⟨fun name => (Draft.ofMembers members).lookup (some name), .missingField, false, o'⟩ : Cells)
      = .ofObject members o' := by
    simp only [Cells.ofObject, Draft.lookup_ofMembers]
  rw [hcells]

/-- **A record is what an object in order has under the names of its fields.** -/
theorem record_ofJson_obj {expected : String} {f : Fields α} (hf : f.Checked) {o o' : Origin} (ho : o.enter = .ok o')
    {members : Object} (hs : members.Sorted) {a : α} :
    record expected f o (Draft.ofJson (.obj members)) = .ok a ↔ f.build (.ofObject members o') = .ok a := by
  rw [record_ofJson_eq ho]
  refine ⟨fun h => ?_, fun h => ?_⟩
  · obtain ⟨-, -, h⟩ := Outcome.bind_eq_ok.1 h
    exact h
  · rw [checkMembers_ofMembers hs (fun _ _ => List.not_mem_nil), Outcome.ok_bind, h]
    intro p hp v hv
    refine hf _ a h p hp _ ?_
    simp [Cells.ofObject, (Table.get?_eq_some_iff hs).2 hv]

/-- A record read off a value. -/
theorem ofJson_record {expected : String} {f : Fields α} (hf : f.Checked) {members : Object} (hs : members.Sorted)
    {a : α} : (record expected f).ofJson (.obj members) = .ok a ↔ f.build (.ofObject members .value) = .ok a :=
  record_ofJson_obj hf rfl hs

/-- **A record is read off a value that gives its fields.** -/
theorem record_of_gives {expected : String} {f : Fields α} {members : Object} (hs : members.Sorted) {a : α}
    (h : f.Gives members a) : (record expected f).ofJson (.obj members) = .ok a :=
  (ofJson_record h.checked hs).2 h.build_eq

/-- A record is read off a value that was written without the fields that have none. -/
theorem record_of_options {expected : String} {f : Fields α} {entries : List (String × Option Json)} {a : α}
    (hnames : (entries.map Prod.fst).Nodup)
    (h : (∀ name, (Table.ofOptions entries).get? name = (entries.lookup name).join) →
      f.Gives (Table.ofOptions entries) a) :
    (record expected f).ofJson (Json.ofOptions entries) = .ok a :=
  record_of_gives (Table.sorted_ofList _) (h (Table.get?_ofOptions hnames))

/-- What was read off a value was read field by field. -/
theorem build_of_ofJson_record {expected : String} {f : Fields α} {members : Object} {a : α}
    (h : (record expected f).ofJson (.obj members) = .ok a) : f.build (.ofObject members .value) = .ok a := by
  rw [ofJson, record_ofJson_eq rfl] at h
  obtain ⟨-, -, h⟩ := Outcome.bind_eq_ok.1 h
  exact h

end Reader
end DocClient
