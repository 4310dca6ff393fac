/-
# Records are read back as they were written

A record is written and read by two declarations of their own: under which name a field goes, whether it is left out or
null where there is nothing, and what stands for it then. For every record that can be built the two agree, whatever
combination of its parts is missing (`records_read_back`):

| a field that is missing | is written as | is read as missing from |
| --- | --- | --- |
| of settings, errors, rows, the server's members | null | null, or nothing there |
| of design documents, views, answers and outcomes of writes | not at all | null, or nothing there |
| an empty table of a design document | not at all | nothing there |

What a record can hold is said by `Fits`: numbers have 64 bits, tables and free-form members are in order. Each proof
goes through the fields in the order of their declaration, one step a field; the step says how the field is written
where it is missing (`Fields.gives_null`, `Fields.gives_nullable`, `Fields.gives_table`).
-/

import DocClient.Proofs.Json.Record
import DocClient.Store.View

namespace DocClient

open Fields Reader

/-- The greatest number of 64 bits. -/
def maxNat64 : Nat := 0xFFFFFFFFFFFFFFFF

theorem DatabaseNaming.reader_toJson (n : DatabaseNaming) : reader.ofJson n.toJson = .ok n := by
  cases n with
  | perType => rfl
  | predefined db =>
    have hlt : "database" < "mode" := by decide
    have hmembers : Table.ofList [("mode", Json.str "predefined"), ("database", .str db.text)]
        = [("database", .str db.text), ("mode", .str "predefined")] := by
      simp [Table.ofList, Table.insert, hlt]
    rw [toJson, Json.ofMembers, hmembers]
    rfl

theorem NullPolicy.reader_toJson (p : NullPolicy) : reader.ofJson p.toJson = .ok p := by
  cases p <;> rfl

namespace Settings

/-- The timeouts have 64 bits. -/
def Fits (s : Settings) : Prop := s.requestTimeoutSecs ≤ maxNat64 ∧ s.connectTimeoutSecs ≤ maxNat64

theorem reader_toJson {s : Settings} (hs : s.Fits) : reader.ofJson s.toJson = .ok s := by
  refine record_of_gives (Table.sorted_ofList _) ?_
  refine (((((((Gives.map ?_ _).seq ?_).seq ?_).seq ?_).seq ?_).seq ?_).seq ?_).seq ?_
  · exact gives_written (Table.get?_ofList ..) rfl
  · exact gives_null (Table.get?_ofList ..) fun _ _ => ⟨nofun, rfl⟩
  · exact gives_null (Table.get?_ofList ..) fun _ _ => ⟨nofun, rfl⟩
  · exact gives_written (Table.get?_ofList ..) s.databaseNaming.reader_toJson
  · exact gives_written (Table.get?_ofList ..) rfl
  · exact gives_written (Table.get?_ofList ..) s.nullFields.reader_toJson
  · exact gives_written (Table.get?_ofList ..) (natural_ofJson hs.1)
  · exact gives_written (Table.get?_ofList ..) (natural_ofJson hs.2)

end Settings

namespace View

theorem reader_toJson (v : View) : reader.ofJson v.toJson = .ok v := by
  refine record_of_options (by simp) fun hget => ?_
  refine (Gives.map ?_ _).seq ?_
  · exact gives_field (hget _) rfl
  · exact gives_nullable (hget _) fun _ _ => ⟨nofun, rfl⟩

end View

/-- A table is read back, written or left out. -/
theorem Fields.gives_table {α : Type} {o : Object} {name : String} {r : Reader α} {write : α → Json} {t : Table α}
    (hv : o.get? name = Json.ofTable? write t) (hs : t.Sorted) (hr : ∀ m ∈ t, r.ofJson (write m.2) = .ok m.2) :
    (defaulted name (Reader.table r) []).Gives o t := by
  refine gives_defaulted hv ?_ ?_
  · intro hnone
    cases t with
    | nil => rfl
    | cons m rest => cases hnone
  · intro v hsome
    cases t with
    | nil => cases hsome
    | cons m rest =>
      obtain rfl := Option.some.inj hsome
      exact table_written hs hr

namespace DesignDocument

/-- The options are in order, and so are the filters, the update handlers and the views. -/
structure Fits (d : DesignDocument) : Prop where
  options : ∀ o, d.options = some o → (Json.obj o).Canonical
  filters : d.filters.Sorted
  updates : d.updates.Sorted
  views : d.views.Sorted

/-- What a design document is written with under each name, if anything. -/
def parts (d : DesignDocument) : List (String × Option Json) :=
  [("id", some (.str d.id.text)), ("revision", some (Json.ofRevision? d.revision)),
    ("language", some (.str d.language)), ("autoupdate", d.autoupdate.map .bool), ("options", d.options.map .obj),
    ("filters", Json.ofTable? .str d.filters), ("updates", Json.ofTable? .str d.updates),
    ("validate_doc_update", d.validateDocUpdate.map .str), ("views", Json.ofTable? View.toJson d.views)]

/-- The members that a design document is written as. -/
def members (d : DesignDocument) : Object := Table.ofOptions d.parts

theorem toJson_eq (d : DesignDocument) : d.toJson = .obj d.members := rfl

theorem sorted_members (d : DesignDocument) : d.members.Sorted := Table.sorted_ofList _

theorem get?_members (d : DesignDocument) (key : String) : d.members.get? key = (d.parts.lookup key).join :=
  Table.get?_ofOptions (by simp [parts]) key

/-- **A design document is read from whatever has its members**, with a null for a missing revision or without. -/
theorem reads {d : DesignDocument} (hd : d.Fits) {o : Object} (hs : o.Sorted)
    (hrev : o.get? "revision" = some (Json.ofRevision? d.revision)
      ∨ o.get? "revision" = d.revision.map fun rev => .str rev.text)
    (hothers : ∀ key, key ≠ "revision" → o.get? key = d.members.get? key) : reader.ofJson (.obj o) = .ok d := by
  have hget : ∀ key, key ≠ "revision" → o.get? key = (d.parts.lookup key).join :=
    fun key hkey => (hothers key hkey).trans (d.get?_members key)
  refine record_of_gives hs ?_
  refine ((((((((Gives.map ?_ _).seq ?_).seq ?_).seq ?_).seq ?_).seq ?_).seq ?_).seq ?_).seq ?_
  · exact gives_field (hget _ (by decide)) rfl
  · rcases hrev with hnull | hmissing
    · exact gives_null hnull fun _ _ => ⟨nofun, rfl⟩
    · exact gives_nullable hmissing fun _ _ => ⟨nofun, rfl⟩
  · exact gives_written (hget _ (by decide)) rfl
  · exact gives_nullable (hget _ (by decide)) fun _ _ => ⟨nofun, rfl⟩
  · exact gives_nullable (hget _ (by decide)) fun o ho => ⟨nofun, (object_ofJson_iff (hd.options o ho)).2 rfl⟩
  · exact gives_table (hget _ (by decide)) hd.filters fun _ _ => rfl
  · exact gives_table (hget _ (by decide)) hd.updates fun _ _ => rfl
  · exact gives_nullable (hget _ (by decide)) fun _ _ => ⟨nofun, rfl⟩
  · exact gives_table (hget _ (by decide)) hd.views fun m _ => m.2.reader_toJson

theorem reader_toJson {d : DesignDocument} (hd : d.Fits) : reader.ofJson d.toJson = .ok d :=
  reads hd d.sorted_members (.inl (d.get?_members "revision")) fun _ _ => rfl

end DesignDocument

theorem RevisionPath.reader_toJson {p : RevisionPath} (hp : p.start ≤ maxNat64) : reader.ofJson p.toJson = .ok p := by
  refine record_of_gives (Table.sorted_ofList _) ?_
  refine (Gives.map ?_ _).seq ?_
  · exact gives_field (Table.get?_ofList ..) (list_ofStrings p.ids rfl)
  · exact gives_field (Table.get?_ofList ..) (natural_ofJson hp)

theorem RevisionStatus.reader_toJson (s : RevisionStatus) : reader.ofJson s.toJson = .ok s := by
  refine record_of_gives (Table.sorted_ofList _) ?_
  refine (Gives.map ?_ _).seq ?_
  · exact gives_field (Table.get?_ofList ..) rfl
  · exact gives_field (Table.get?_ofList ..) rfl

theorem Revision.list_ofRevisions (revs : List Revision) :
    (Reader.list Revision.reader).ofJson (Json.ofRevisions revs) = .ok revs := by
  rw [Json.ofRevisions, Json.ofStrings, List.map_map]
  exact list_written fun _ _ => rfl

namespace SystemFields

/-- The attachments are in order, and the path of revisions has a length of 64 bits. -/
structure Fits (s : SystemFields) : Prop where
  attachments : ∀ o, s.attachments = some o → (Json.obj o).Canonical
  revisions : ∀ p, s.revisions = some p → p.start ≤ maxNat64

theorem reader_toJson {s : SystemFields} (hs : s.Fits) : reader.ofJson s.toJson = .ok s := by
  refine record_of_gives (Table.sorted_ofList _) ?_
  refine ((((((((Gives.map ?_ _).seq ?_).seq ?_).seq ?_).seq ?_).seq ?_).seq ?_).seq ?_).seq ?_
  · exact gives_null (Table.get?_ofList ..) fun _ _ => ⟨nofun, rfl⟩
  · exact gives_null (Table.get?_ofList ..) fun o ho => ⟨nofun, (object_ofJson_iff (hs.attachments o ho)).2 rfl⟩
  · exact gives_null (Table.get?_ofList ..) fun revs _ => ⟨nofun, Revision.list_ofRevisions revs⟩
  · exact gives_null (Table.get?_ofList ..) fun revs _ => ⟨nofun, Revision.list_ofRevisions revs⟩
  · exact gives_null (Table.get?_ofList ..) fun _ _ => ⟨nofun, rfl⟩
  · exact gives_null (Table.get?_ofList ..) fun _ _ => ⟨nofun, list_written fun s _ => s.reader_toJson⟩
  · exact gives_null (Table.get?_ofList ..) fun p hp => ⟨nofun, RevisionPath.reader_toJson (hs.revisions p hp)⟩
  · exact gives_null (Table.get?_ofList ..) fun _ _ => ⟨nofun, rfl⟩
  · exact gives_null (Table.get?_ofList ..) fun _ _ => ⟨nofun, rfl⟩

end SystemFields

theorem WriteReply.reader_toJson (r : WriteReply) : reader.ofJson r.toJson = .ok r := by
  refine record_of_options (by simp) fun hget => ?_
  refine ((((Gives.map ?_ _).seq ?_).seq ?_).seq ?_).seq ?_
  · exact gives_written (hget _) rfl
  · exact gives_written (hget _) rfl
  · exact gives_nullable (hget _) fun _ _ => ⟨nofun, rfl⟩
  · exact gives_nullable (hget _) fun _ _ => ⟨nofun, rfl⟩
  · exact gives_nullable (hget _) fun _ _ => ⟨nofun, rfl⟩

theorem BulkOutcome.reader_toJson (r : BulkOutcome) : reader.ofJson r.toJson = .ok r := by
  refine record_of_options (by simp) fun hget => ?_
  refine ((((Gives.map ?_ _).seq ?_).seq ?_).seq ?_).seq ?_
  · exact gives_written (hget _) rfl
  · exact gives_nullable (hget _) fun _ _ => ⟨nofun, rfl⟩
  · exact gives_written (hget _) rfl
  · exact gives_nullable (hget _) fun _ _ => ⟨nofun, rfl⟩
  · exact gives_nullable (hget _) fun _ _ => ⟨nofun, rfl⟩

theorem BulkReadError.reader_toJson (e : BulkReadError) : reader.ofJson e.toJson = .ok e := by
  refine record_of_gives (Table.sorted_ofList _) ?_
  refine (((Gives.map ?_ _).seq ?_).seq ?_).seq ?_
  · exact gives_field (Table.get?_ofList ..) rfl
  · exact gives_null (Table.get?_ofList ..) fun _ _ => ⟨nofun, rfl⟩
  · exact gives_field (Table.get?_ofList ..) rfl
  · exact gives_null (Table.get?_ofList ..) fun _ _ => ⟨nofun, rfl⟩

theorem ErrorBody.reader_toJson (b : ErrorBody) : reader.ofJson b.toJson = .ok b := by
  refine record_of_gives (Table.sorted_ofList _) ?_
  refine (Gives.map ?_ _).seq ?_
  · exact gives_field (Table.get?_ofList ..) rfl
  · exact gives_null (Table.get?_ofList ..) fun _ _ => ⟨nofun, rfl⟩

namespace RawRow

/-- The key, the value and the document are in order. -/
structure Fits (r : RawRow) : Prop where
  key : r.key.Canonical
  value : r.value.Canonical
  doc : ∀ o, r.doc = some o → (Json.obj o).Canonical

theorem reader_toJson {r : RawRow} (hr : r.Fits) : reader.ofJson r.toJson = .ok r := by
  refine record_of_gives (Table.sorted_ofList _) ?_
  refine (((Gives.map ?_ _).seq ?_).seq ?_).seq ?_
  · exact gives_null (Table.get?_ofList ..) fun _ _ => ⟨nofun, rfl⟩
  · exact gives_written (Table.get?_ofList ..) (json_ofJson rfl hr.key)
  · exact gives_written (Table.get?_ofList ..) (json_ofJson rfl hr.value)
  · exact gives_null (Table.get?_ofList ..) fun o ho => ⟨nofun, (object_ofJson_iff (hr.doc o ho)).2 rfl⟩

end RawRow

namespace RawRows

/-- The rows are in order, and the numbers have 64 bits. -/
structure Fits (r : RawRows) : Prop where
  rows : ∀ row ∈ r.rows, row.Fits
  offset : ∀ n, r.offset = some n → n ≤ maxNat64
  totalRows : ∀ n, r.totalRows = some n → n ≤ maxNat64

theorem reader_toJson {r : RawRows} (hr : r.Fits) : reader.ofJson r.toJson = .ok r := by
  refine record_of_gives (Table.sorted_ofList _) ?_
  refine (((Gives.map ?_ _).seq ?_).seq ?_).seq ?_
  · exact gives_field (Table.get?_ofList ..) (list_written fun row h => RawRow.reader_toJson (hr.rows row h))
  · exact gives_null (Table.get?_ofList ..) fun n hn => ⟨nofun, natural_ofJson (hr.offset n hn)⟩
  · exact gives_null (Table.get?_ofList ..) fun n hn => ⟨nofun, natural_ofJson (hr.totalRows n hn)⟩
  · exact gives_null (Table.get?_ofList ..) fun _ _ => ⟨nofun, rfl⟩

end RawRows

/-- **Every record is read back as it was written**, whatever is missing of it and whatever its free-form parts hold:
settings, design documents and their views, the members that the server looks after, the answer to a write, the
outcomes of bulk writes and reads, the body of an error, and the rows of a view. -/
theorem records_read_back :
    (∀ s : Settings, s.Fits → Settings.reader.ofJson s.toJson = .ok s)
    ∧ (∀ n : DatabaseNaming, DatabaseNaming.reader.ofJson n.toJson = .ok n)
    ∧ (∀ d : DesignDocument, d.Fits → DesignDocument.reader.ofJson d.toJson = .ok d)
    ∧ (∀ v : View, View.reader.ofJson v.toJson = .ok v)
    ∧ (∀ s : SystemFields, s.Fits → SystemFields.reader.ofJson s.toJson = .ok s)
    ∧ (∀ r : WriteReply, WriteReply.reader.ofJson r.toJson = .ok r)
    ∧ (∀ o : BulkOutcome, BulkOutcome.reader.ofJson o.toJson = .ok o)
    ∧ (∀ e : BulkReadError, BulkReadError.reader.ofJson e.toJson = .ok e)
    ∧ (∀ b : ErrorBody, ErrorBody.reader.ofJson b.toJson = .ok b)
    ∧ (∀ r : RawRow, r.Fits → RawRow.reader.ofJson r.toJson = .ok r)
    ∧ ∀ r : RawRows, r.Fits → RawRows.reader.ofJson r.toJson = .ok r :=
  ⟨fun _ => Settings.reader_toJson, DatabaseNaming.reader_toJson, fun _ => DesignDocument.reader_toJson,
    View.reader_toJson, fun _ => SystemFields.reader_toJson, WriteReply.reader_toJson, BulkOutcome.reader_toJson,
    BulkReadError.reader_toJson, ErrorBody.reader_toJson, fun _ => RawRow.reader_toJson,
    fun _ => RawRows.reader_toJson⟩

/-- Free-form members with an object inside of them. -/
def sampleMembers : Object := [("a", .obj [("b", .null), ("c", .arr [.str "", .obj []])]), ("d", .bool false)]

theorem canonical_sampleMembers : (Json.obj sampleMembers).Canonical := by
  have hinner : Table.Sorted [("b", Json.null), ("c", .arr [.str "", .obj []])] := by decide
  have houter : sampleMembers.Sorted := by decide
  exact ⟨houter, ⟨hinner, trivial, ⟨trivial, ⟨List.Pairwise.nil, trivial⟩, trivial⟩, trivial⟩, trivial, trivial⟩

/-- Settings with a shared database. -/
def sampleSettings : Settings :=
  { username := some "", databaseNaming := .predefined ⟨"db"⟩, nullFields := .omit, requestTimeoutSecs := maxNat64 }

/-- A design document with two views and nothing else but options. -/
def sampleDesign : DesignDocument :=
  { id := ⟨"d"⟩, options := some sampleMembers, views := [("v", { map := "m" }), ("w", ⟨"", some "r"⟩)] }

/-- The server's members of a document with an attachment and a history. -/
def sampleSystem : SystemFields :=
  { attachments := some sampleMembers, conflicts := some [], revisions := some ⟨["x", "y"], 2⟩ }

/-- A row with a document, of an empty key. -/
def sampleRow : RawRow := ⟨none, .null, .arr [.obj sampleMembers], some sampleMembers⟩

/-- Two rows of a view, out of as many as there can be. -/
def sampleRows : RawRows := ⟨[sampleRow, { sampleRow with doc := none }], some 0, some maxNat64, none⟩

theorem fits_sampleRow : sampleRow.Fits where
  key := trivial
  value := ⟨canonical_sampleMembers, trivial⟩
  doc _ ho := Option.some.inj ho ▸ canonical_sampleMembers

/-- Records with parts of every kind are read back. -/
theorem records_read_back_samples :
    Settings.reader.ofJson sampleSettings.toJson = .ok sampleSettings
    ∧ DesignDocument.reader.ofJson sampleDesign.toJson = .ok sampleDesign
    ∧ SystemFields.reader.ofJson sampleSystem.toJson = .ok sampleSystem
    ∧ RawRow.reader.ofJson sampleRow.toJson = .ok sampleRow
    ∧ RawRows.reader.ofJson sampleRows.toJson = .ok sampleRows := by
  obtain ⟨hsettings, -, hdesign, -, hsystem, -, -, -, -, hrow, hrows⟩ := records_read_back
  refine ⟨hsettings _ ⟨by decide, by decide⟩, hdesign _ ?_, hsystem _ ?_, hrow _ fits_sampleRow, hrows _ ?_⟩
  · exact ⟨fun _ ho => Option.some.inj ho ▸ canonical_sampleMembers, .nil, .nil, by decide⟩
  · refine ⟨fun _ ho => Option.some.inj ho ▸ canonical_sampleMembers, fun p hp => ?_⟩
    obtain rfl := Option.some.inj hp
    decide
  · refine ⟨?_, fun n hn => ?_, fun n hn => ?_⟩
    · intro row hrow
      rcases List.mem_cons.1 hrow with rfl | hrow
      · exact fits_sampleRow
      · obtain rfl := List.mem_singleton.1 hrow
        exact ⟨fits_sampleRow.key, fits_sampleRow.value, nofun⟩
    · obtain rfl := Option.some.inj hn
      decide
    · obtain rfl := Option.some.inj hn
      decide

end DocClient
