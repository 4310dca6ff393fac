/-
# Entity types that are written and read back

An entity type is faithful (`EntityType.Faithful`) when an entity is written as an object of its fields, among them its
name and its revision, and is read back from every object that agrees with it on the fields. To agree, a null may be
missing (`Agree`): nulls are what an envelope leaves out.

The four stock types are faithful on the entities that their fields can hold (`StockEntity.Fits`): counts of 64 bits,
ports of 16, free-form members in order.
-/

import DocClient.Entity.Stock
import DocClient.Envelope
import DocClient.Proofs.Json.Record

namespace DocClient

/-- An object agrees with another on some names; what is null in the other may be missing. -/
def Agree (names : List String) (d o : Object) : Prop :=
  ∀ name ∈ names, d.get? name = o.get? name ∨ (d.get? name = none ∧ o.get? name = some .null)

namespace Fields

variable {α β : Type} {names : List String} {o : Object}

/-- The fields take a value from every object that agrees with a given one. -/
def Takes (names : List String) (o : Object) (f : Fields α) (a : α) : Prop :=
  ∀ d, Agree names d o → f.build (.ofObject d .value) = .ok a

theorem Takes.map {x : Fields α} {a : α} (hx : x.Takes names o a) (g : α → β) : (g <$> x).Takes names o (g a) := by
  intro d hd
  rw [build_map, hx d hd, Outcome.ok_bind]

theorem Takes.seq {f : Fields (α → β)} {g : α → β} {x : Fields α} {a : α} (hf : f.Takes names o g)
    (hx : x.Takes names o a) : (f <*> x).Takes names o (g a) := by
  intro d hd
  rw [build_seq, hf d hd, hx d hd, Outcome.ok_bind, Outcome.ok_bind]

/-- A field that has to be there takes what it reads of its member. -/
theorem takes_field {name : String} {r : Reader α} {v : Json} {a : α} (hn : name ∈ names) (hv : o.get? name = some v)
    (hp : v ≠ .null) (hr : r .value (Draft.ofJson v) = .ok a) : (field name r).Takes names o a := by
  intro d hd
  rcases hd name hn with h | ⟨-, h⟩
  · simp [field, single, Cells.ofObject, h, hv, hr]
  · exact absurd (Option.some.inj (hv.symm.trans h)) hp

/-- A field with a value to stand for it takes what it reads of its member; the value stands for null. -/
theorem takes_defaulted {name : String} {r : Reader α} {value : α} {v : Json} {a : α} (hn : name ∈ names)
    (hv : o.get? name = some v) (hnull : v = .null → a = value) (hr : r .value (Draft.ofJson v) = .ok a) :
    (defaulted name r value).Takes names o a := by
  intro d hd
  rcases hd name hn with h | ⟨h, hn⟩
  · simp [defaulted, single, Cells.ofObject, h, hv, hr]
  · simp [defaulted, single, Cells.ofObject, h, hnull (Option.some.inj (hv.symm.trans hn))]

/-- A field that an object may leave out takes what is written of a value that may be missing. -/
theorem takes_optional {name : String} {r : Reader α} {write : α → Json} {a : Option α} (hn : name ∈ names)
    (hv : o.get? name = some (a.elim .null write)) (hr : ∀ b, a = some b → r .value (Draft.ofJson (write b)) = .ok b)
    (hp : ∀ b, write b ≠ .null) : (optional name r).Takes names o a := by
  intro d hd
  cases a with
  | none =>
    rcases hd name hn with h | ⟨h, -⟩
    · simp [optional, single, Cells.ofObject, h, hv, Draft.ofJson, Reader.option]
    · simp [optional, single, Cells.ofObject, h]
  | some b =>
    rcases hd name hn with h | ⟨-, h⟩
    · simp [optional, single, Cells.ofObject, h, hv, Reader.option_ofJson (hp b), hr b rfl]
    · exact absurd (Option.some.inj (hv.symm.trans h)) (hp b)

/-- A field that may be null takes what is written of a value that may be missing, or left out with it. -/
theorem takes_nullable {name : String} {r : Reader α} {write : α → Json} {a : Option α} (hn : name ∈ names)
    (hv : o.get? name = some (a.elim .null write) ∨ (a = none ∧ o.get? name = none))
    (hr : ∀ b, a = some b → r .value (Draft.ofJson (write b)) = .ok b) (hp : ∀ b, write b ≠ .null) :
    (nullable name r).Takes names o a := by
  rcases hv with hv | ⟨rfl, hv⟩
  · cases a with
    | none => exact takes_defaulted hn hv (fun _ => rfl) rfl
    | some b =>
      refine takes_defaulted hn hv (fun h => absurd h (hp b)) ?_
      rw [Option.elim_some, Reader.option_ofJson (hp b), hr b rfl, Outcome.map_ok]
  · intro d hd
    rcases hd name hn with h | ⟨-, h⟩
    · simp [nullable, defaulted, single, Cells.ofObject, h, hv]
    · exact absurd (hv.symm.trans h) (by simp)

end Fields

namespace EntityType

variable {α ε : Type}

/-- The members that an entity is written as. -/
def members (T : EntityType α) (e : α) : Object := (T.toJson e).obj?.getD []

/-- **A faithful entity type:** entities of it are written as objects of its fields and read back from whatever agrees
with that; a new revision changes nothing but the revision. -/
structure Faithful (T : EntityType α) (fields : List String) (Valid : α → Prop) : Prop where
  has_id : "id" ∈ fields
  has_revision : "revision" ∈ fields
  /-- No field has a name that the server looks after. -/
  plain : ∀ name ∈ fields, Envelope.isSystem name = false
  toJson_eq : ∀ e, Valid e → T.toJson e = .obj (T.members e)
  sorted : ∀ e, Valid e → (T.members e).Sorted
  canonical : ∀ e, Valid e → Json.CanonicalMembers (T.members e)
  named : ∀ e, Valid e → ∀ m ∈ T.members e, m.1 ∈ fields
  get?_id : ∀ e, Valid e → (T.members e).get? "id" = some (.str (T.id e).text)
  /-- A missing revision is written as null or not at all. -/
  get?_revision : ∀ e, Valid e →
    ((T.members e).get? "revision").filter (fun v => !v.isNull) = (T.revision e).map fun r => .str r.text
  reads : ∀ e, Valid e → ∀ d : Object, d.Sorted → Agree fields d (T.members e) → T.reader.ofJson (.obj d) = .ok e
  valid_withRevision : ∀ e, Valid e → ∀ r, Valid (T.withRevision e r)
  id_withRevision : ∀ e r, T.id (T.withRevision e r) = T.id e
  revision_withRevision : ∀ e r, T.revision (T.withRevision e r) = some r
  get?_withRevision : ∀ e, Valid e → ∀ r name, name ≠ "revision" →
    (T.members (T.withRevision e r)).get? name = (T.members e).get? name

section Faithful

variable {T : EntityType α} {fields : List String} {Valid : α → Prop} {e e' : α}

/-- Entities of a faithful type are told apart by their members. -/
theorem Faithful.eq_of_members (hT : T.Faithful fields Valid) (he : Valid e) (he' : Valid e')
    (h : T.members e = T.members e') : e = e' := by
  have hread := hT.reads e he (T.members e) (hT.sorted e he) fun _ _ => .inl rfl
  rw [h, hT.reads e' he' (T.members e') (hT.sorted e' he') fun _ _ => .inl rfl] at hread
  exact (Except.ok.inj hread).symm

/-- A new revision is written as a text. -/
theorem Faithful.get?_revision_withRevision (hT : T.Faithful fields Valid) (he : Valid e) (rev : Revision) :
    (T.members (T.withRevision e rev)).get? "revision" = some (.str rev.text) := by
  have hget := hT.get?_revision _ (hT.valid_withRevision e he rev)
  rw [hT.revision_withRevision] at hget
  exact (Option.filter_eq_some_iff.1 hget).1

/-- **Of two new revisions the later one counts.** -/
theorem Faithful.withRevision_withRevision (hT : T.Faithful fields Valid) (he : Valid e) (rev rev' : Revision) :
    T.withRevision (T.withRevision e rev) rev' = T.withRevision e rev' := by
  have hrev := hT.valid_withRevision e he rev
  have htwice := hT.valid_withRevision _ hrev rev'
  have honce := hT.valid_withRevision e he rev'
  refine hT.eq_of_members htwice honce (Table.ext (hT.sorted _ htwice) (hT.sorted _ honce) fun name => ?_)
  by_cases hname : name = "revision"
  · subst hname
    rw [hT.get?_revision_withRevision hrev, hT.get?_revision_withRevision he]
  · rw [hT.get?_withRevision _ hrev _ _ hname, hT.get?_withRevision e he _ _ hname,
      hT.get?_withRevision e he _ _ hname]

end Faithful

/-- A type whose entities are written entry by entry is faithful if the entries are as they should be and the entity is
read back from them. -/
theorem Faithful.of_entries {T : EntityType α} {fields : List String} {Valid : α → Prop}
    (entries : α → List (String × Json)) (hjson : ∀ e, T.toJson e = Json.ofMembers (entries e))
    (hnames : "id" ∈ fields ∧ "revision" ∈ fields ∧ ∀ name ∈ fields, Envelope.isSystem name = false)
    (hentries : ∀ e, Valid e → ∀ m ∈ entries e, m.1 ∈ fields ∧ m.2.Canonical)
    (hid : ∀ e, (entries e).reverse.lookup "id" = some (.str (T.id e).text))
    (hrevision : ∀ e, ((entries e).reverse.lookup "revision").filter (fun v => !v.isNull)
      = (T.revision e).map fun r => .str r.text)
    (hreads : ∀ e, Valid e → ∀ d : Object, d.Sorted → Agree fields d (Table.ofList (entries e)) →
      T.reader.ofJson (.obj d) = .ok e)
    (hvalid : ∀ e, Valid e → ∀ r, Valid (T.withRevision e r)) (hids : ∀ e r, T.id (T.withRevision e r) = T.id e)
    (hrevisions : ∀ e r, T.revision (T.withRevision e r) = some r)
    (hothers : ∀ e r name, name ≠ "revision" →
      (entries (T.withRevision e r)).reverse.lookup name = (entries e).reverse.lookup name) :
    T.Faithful fields Valid := by
  have hmembers : ∀ e, T.members e = Table.ofList (entries e) := fun e => by rw [members, hjson]; rfl
  refine ⟨hnames.1, hnames.2.1, hnames.2.2, ?_, ?_, ?_, ?_, ?_, ?_, ?_, hvalid, hids, hrevisions, ?_⟩
  · intro e _
    rw [hmembers, hjson, Json.ofMembers]
  · intro e _
    exact hmembers e ▸ Table.sorted_ofList _
  · intro e he
    rw [hmembers]
    exact Json.canonicalMembers_of_forall fun m hm => (hentries e he m (Table.mem_of_mem_ofList hm)).2
  · intro e he m hm
    rw [hmembers] at hm
    exact (hentries e he m (Table.mem_of_mem_ofList hm)).1
  · intro e _
    rw [hmembers, Table.get?_ofList, hid]
  · intro e _
    rw [hmembers, Table.get?_ofList, hrevision]
  · intro e he d hd hagree
    exact hreads e he d hd (hmembers e ▸ hagree)
  · intro e _ r name hn
    rw [hmembers, hmembers, Table.get?_ofList, Table.get?_ofList, hothers e r name hn]

/-- Entities in a wrapper are as faithful as without it. -/
theorem Faithful.wrap {T : EntityType α} {fields : List String} {Valid : α → Prop} (hT : T.Faithful fields Valid)
    {U : EntityType ε} {Wrapped : ε → Prop} {wrap : α → ε} (hwrapped : ∀ e, Wrapped e ↔ ∃ a, wrap a = e ∧ Valid a)
    (hid : ∀ a, U.id (wrap a) = T.id a) (hrevision : ∀ a, U.revision (wrap a) = T.revision a)
    (hwith : ∀ a r, U.withRevision (wrap a) r = wrap (T.withRevision a r))
    (hjson : ∀ a, U.toJson (wrap a) = T.toJson a) (hreader : U.reader = fun o d => (T.reader o d).map wrap)
    (hids : ∀ e r, U.id (U.withRevision e r) = U.id e) (hrevisions : ∀ e r, U.revision (U.withRevision e r) = some r) :
    U.Faithful fields Wrapped := by
  have hmembers : ∀ a, U.members (wrap a) = T.members a := fun a => by rw [members, hjson, members]
  refine ⟨hT.has_id, hT.has_revision, hT.plain, ?_, ?_, ?_, ?_, ?_, ?_, ?_, ?_, hids, hrevisions, ?_⟩ <;>
    intro e he <;> obtain ⟨a, rfl, ha⟩ := (hwrapped e).1 he
  · rw [hmembers, hjson, hT.toJson_eq a ha]
  · exact hmembers a ▸ hT.sorted a ha
  · exact hmembers a ▸ hT.canonical a ha
  · exact hmembers a ▸ hT.named a ha
  · rw [hmembers, hid, hT.get?_id a ha]
  · rw [hmembers, hrevision, hT.get?_revision a ha]
  · intro d hd hagree
    rw [hmembers] at hagree
    have hr : (T.reader.ofJson (.obj d)).map wrap = .ok (wrap a) := by rw [hT.reads a ha d hd hagree, Outcome.map_ok]
    rw [hreader]
    exact hr
  · intro r
    exact (hwrapped _).2 ⟨T.withRevision a r, (hwith a r).symm, hT.valid_withRevision a ha r⟩
  · intro r name hn
    rw [hwith, hmembers, hmembers, hT.get?_withRevision a ha r name hn]

end EntityType
end DocClient
