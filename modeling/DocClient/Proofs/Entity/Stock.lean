/-
# The four stock types are faithful

What an entity of each type can hold, the fields it is written with, and the proof that it is read back from them. All
four go the same way: the members are a table of the fields, and the declaration of the fields takes the entity from
every object that agrees with the table, field by field.
-/

import DocClient.Proofs.Entity.Faithful

namespace DocClient

namespace TestEntity

/-- The count has 64 bits. -/
def Fits (e : TestEntity) : Prop := Reader.minInt64 ≤ e.count ∧ e.count ≤ Reader.maxInt64

/-- The names of the fields. -/
def fields : List String := ["id", "revision", "label", "count"]

theorem faithful : type.Faithful fields Fits := by
  refine EntityType.Faithful.of_entries _ (fun _ => rfl) (by decide) ?_ (fun _ => rfl) ?_ ?_ (fun _ he _ => he)
    (fun _ _ => rfl) (fun _ _ => rfl) ?_
  · intro e _ m hm
    simp only [List.mem_cons, List.not_mem_nil, or_false] at hm
    rcases hm with rfl | rfl | rfl | rfl
    · exact ⟨by simp [fields], trivial⟩
    · exact ⟨by simp [fields], by cases e.revision <;> trivial⟩
    · exact ⟨by simp [fields], trivial⟩
    · exact ⟨by simp [fields], trivial⟩
  · intro e
    cases h : e.revision <;> simp [List.lookup_cons, type, h, Json.ofRevision?, Json.isNull]
  · intro e he d hd hagree
    refine (Reader.ofJson_record ?_ hd).2 ?_
    · exact (((Fields.checked_field.map _).seq Fields.checked_optional).seq Fields.checked_field).seq
        Fields.checked_defaulted
    · refine Fields.Takes.seq (Fields.Takes.seq (Fields.Takes.seq (Fields.Takes.map ?_ _) ?_) ?_) ?_ d hagree
      · exact Fields.takes_field (by decide) (Table.get?_ofList ..) (by simp) rfl
      · exact Fields.takes_optional (by decide) (Table.get?_ofList ..) (fun _ _ => rfl) (by simp)
      · exact Fields.takes_field (by decide) (Table.get?_ofList ..) (by simp) rfl
      · exact Fields.takes_defaulted (by decide) (Table.get?_ofList ..) (by simp [Json.ofInt])
          (Reader.integer_ofJson he)
  · intro e r name hn
    simp [List.lookup_cons, beq_false_of_ne hn, type]

end TestEntity

namespace OtherEntity

/-- Any title can be held. -/
def Fits (_ : OtherEntity) : Prop := True

/-- The names of the fields. -/
def fields : List String := ["id", "revision", "title"]

theorem faithful : type.Faithful fields Fits := by
  refine EntityType.Faithful.of_entries _ (fun _ => rfl) (by decide) ?_ (fun _ => rfl) ?_ ?_ (fun _ he _ => he)
    (fun _ _ => rfl) (fun _ _ => rfl) ?_
  · intro e _ m hm
    simp only [List.mem_cons, List.not_mem_nil, or_false] at hm
    rcases hm with rfl | rfl | rfl
    · exact ⟨by simp [fields], trivial⟩
    · exact ⟨by simp [fields], by cases e.revision <;> trivial⟩
    · exact ⟨by simp [fields], trivial⟩
  · intro e
    cases h : e.revision <;> simp [List.lookup_cons, type, h, Json.ofRevision?, Json.isNull]
  · intro e _ d hd hagree
    refine (Reader.ofJson_record ?_ hd).2 ?_
    · exact ((Fields.checked_field.map _).seq Fields.checked_optional).seq Fields.checked_field
    · refine Fields.Takes.seq (Fields.Takes.seq (Fields.Takes.map ?_ _) ?_) ?_ d hagree
      · exact Fields.takes_field (by decide) (Table.get?_ofList ..) (by simp) rfl
      · exact Fields.takes_optional (by decide) (Table.get?_ofList ..) (fun _ _ => rfl) (by simp)
      · exact Fields.takes_field (by decide) (Table.get?_ofList ..) (by simp) rfl
  · intro e r name hn
    simp [List.lookup_cons, beq_false_of_ne hn, type]

end OtherEntity

namespace Note

/-- The free-form members are in order. -/
def Fits (e : Note) : Prop := e.info.Canonical

/-- The names of the fields. -/
def fields : List String := ["id", "revision", "body", "tags", "meta"]

theorem faithful : type.Faithful fields Fits := by
  refine EntityType.Faithful.of_entries _ (fun _ => rfl) (by decide) ?_ (fun _ => rfl) ?_ ?_ (fun _ he _ => he)
    (fun _ _ => rfl) (fun _ _ => rfl) ?_
  · intro e he m hm
    simp only [List.mem_cons, List.not_mem_nil, or_false] at hm
    rcases hm with rfl | rfl | rfl | rfl | rfl
    · exact ⟨by simp [fields], trivial⟩
    · exact ⟨by simp [fields], by cases e.revision <;> trivial⟩
    · exact ⟨by simp [fields], by cases e.body <;> trivial⟩
    · exact ⟨by simp [fields], Json.canonical_ofStrings e.tags⟩
    · exact ⟨by simp [fields], he⟩
  · intro e
    cases h : e.revision <;> simp [List.lookup_cons, type, h, Json.ofRevision?, Json.isNull]
  · intro e he d hd hagree
    refine (Reader.ofJson_record ?_ hd).2 ?_
    · exact ((((Fields.checked_field.map _).seq Fields.checked_optional).seq Fields.checked_optional).seq
        Fields.checked_defaulted).seq Fields.checked_defaulted
    · refine Fields.Takes.seq (Fields.Takes.seq (Fields.Takes.seq (Fields.Takes.seq (Fields.Takes.map ?_ _) ?_) ?_) ?_)
        ?_ d hagree
      · exact Fields.takes_field (by decide) (Table.get?_ofList ..) (by simp) rfl
      · exact Fields.takes_optional (by decide) (Table.get?_ofList ..) (fun _ _ => rfl) (by simp)
      · exact Fields.takes_optional (by decide) (Table.get?_ofList ..) (fun _ _ => rfl) (by simp)
      · exact Fields.takes_defaulted (by decide) (Table.get?_ofList ..) (by simp [Json.ofStrings])
          (Reader.list_ofStrings e.tags rfl)
      · exact Fields.takes_defaulted (by decide) (Table.get?_ofList ..) (fun h => h) (Reader.json_ofJson rfl he)
  · intro e r name hn
    simp [List.lookup_cons, beq_false_of_ne hn, type]

end Note

namespace ServerItem

/-- The port has 16 bits. -/
def Fits (e : ServerItem) : Prop := ∀ port, e.port = some port → port ≤ 0xFFFF

/-- The names of the fields. -/
def fields : List String := ["id", "revision", "port"]

/-- The members of an item: a missing revision is left out. -/
def entries (e : ServerItem) : List (String × Json) :=
  [("id", Json.str e.id.text)] ++ (e.revision.map fun r => ("revision", Json.str r.text)).toList
    ++ [("port", e.port.elim .null Json.ofNat)]

theorem toJson_eq_entries (e : ServerItem) : e.toJson = Json.ofMembers e.entries := by
  cases h : e.revision <;> simp [toJson, Json.ofOptions, Json.ofMembers, Table.ofOptions, entries, h]

/-- What the table of the members has under each field. -/
theorem get?_entries (e : ServerItem) :
    (Table.ofList e.entries).get? "id" = some (.str e.id.text) ∧
      (Table.ofList e.entries).get? "revision" = e.revision.map (fun r => .str r.text) ∧
      (Table.ofList e.entries).get? "port" = some (e.port.elim .null Json.ofNat) := by
  rw [Table.get?_ofList, Table.get?_ofList, Table.get?_ofList]
  cases h : e.revision <;> simp [entries, h, List.lookup_cons]

theorem faithful : type.Faithful fields Fits := by
  refine EntityType.Faithful.of_entries entries toJson_eq_entries (by decide) ?_ ?_ ?_ ?_ (fun _ he _ => he)
    (fun _ _ => rfl) (fun _ _ => rfl) ?_
  · intro e _ m hm
    simp only [entries, List.mem_append, List.mem_singleton, Option.mem_toList, Option.map_eq_some_iff] at hm
    rcases hm with (rfl | ⟨r, -, rfl⟩) | rfl
    · exact ⟨by simp [fields], trivial⟩
    · exact ⟨by simp [fields], trivial⟩
    · exact ⟨by simp [fields], by cases e.port <;> trivial⟩
  · intro e
    cases h : e.revision <;> simp [entries, h, List.lookup_cons, type]
  · intro e
    cases h : e.revision <;> simp [entries, h, List.lookup_cons, type, Json.isNull]
  · intro e he d hd hagree
    obtain ⟨hid, hrev, hport⟩ := e.get?_entries
    have hrev : (Table.ofList e.entries).get? "revision" = some (e.revision.elim .null fun r => .str r.text) ∨
        (e.revision = none ∧ (Table.ofList e.entries).get? "revision" = none) := by
      cases h : e.revision with
      | none => exact .inr ⟨rfl, by rw [hrev, h]; rfl⟩
      | some r => exact .inl (by rw [hrev, h]; rfl)
    refine (Reader.ofJson_record ?_ hd).2 ?_
    · exact ((Fields.checked_field.map _).seq Fields.checked_nullable).seq Fields.checked_nullable
    · refine Fields.Takes.seq (Fields.Takes.seq (Fields.Takes.map ?_ _) ?_) ?_ d hagree
      · exact Fields.takes_field (by decide) hid (by simp) rfl
      · exact Fields.takes_nullable (by decide) hrev (fun _ _ => rfl) (by simp)
      · exact Fields.takes_nullable (by decide) (.inl hport) (fun _ hp => Reader.natural_ofJson (he _ hp))
          (by simp [Json.ofNat])
  · intro e r name hn
    cases h : e.revision <;> simp [entries, h, List.lookup_cons, beq_false_of_ne hn, type]

end ServerItem

namespace StockEntity

/-- The fields of the entity can hold what they hold. -/
def Fits : StockEntity → Prop
  | .test e => e.Fits
  | .other e => e.Fits
  | .note e => e.Fits
  | .custom e => e.Fits

end StockEntity

namespace EntityKind

/-- The names of the fields of a kind. -/
def fields : EntityKind → List String
  | .test => TestEntity.fields
  | .other => OtherEntity.fields
  | .note => Note.fields
  | .custom => ServerItem.fields

/-- **Every stock type is faithful** on the entities of its kind that fit. -/
theorem faithful (k : EntityKind) : k.type.Faithful k.fields fun e => e.kind = k ∧ e.Fits := by
  have hids : ∀ e r, StockEntity.id (StockEntity.withRevision e r) = StockEntity.id e := by
    rintro (e | e | e | e) r <;> rfl
  have hrevisions : ∀ e r, StockEntity.revision (StockEntity.withRevision e r) = some r := by
    rintro (e | e | e | e) r <;> rfl
  have hwrapped : ∀ (k : EntityKind) (e : StockEntity), (e.kind = k ∧ e.Fits) ↔
      match k with
      | .test => ∃ a, StockEntity.test a = e ∧ a.Fits
      | .other => ∃ a, StockEntity.other a = e ∧ a.Fits
      | .note => ∃ a, StockEntity.note a = e ∧ a.Fits
      | .custom => ∃ a, StockEntity.custom a = e ∧ a.Fits := by
    intro k e
    cases k <;> cases e <;> simp [StockEntity.kind, StockEntity.Fits]
  cases k with
  | test =>
    exact TestEntity.faithful.wrap (hwrapped .test) (fun _ => rfl) (fun _ => rfl) (fun _ _ => rfl) (fun _ => rfl) rfl
      hids hrevisions
  | other =>
    exact OtherEntity.faithful.wrap (hwrapped .other) (fun _ => rfl) (fun _ => rfl) (fun _ _ => rfl) (fun _ => rfl) rfl
      hids hrevisions
  | note =>
    exact Note.faithful.wrap (hwrapped .note) (fun _ => rfl) (fun _ => rfl) (fun _ _ => rfl) (fun _ => rfl) rfl
      hids hrevisions
  | custom =>
    exact ServerItem.faithful.wrap (hwrapped .custom) (fun _ => rfl) (fun _ => rfl) (fun _ _ => rfl) (fun _ => rfl) rfl
      hids hrevisions

end EntityKind
end DocClient
