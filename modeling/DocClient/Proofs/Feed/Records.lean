/-
# Which lines are changes

A line is a change if it is a JSON object without `error` and without `last_seq` that describes one:

| member | of a change |
| --- | --- |
| `seq` | a string, kept as it is; an integer, kept as its decimal text; null or missing |
| `id` | a string |
| `changes` | an array of revisions, each under `rev` or alone in an array; or missing |
| `deleted` | a boolean, or missing for false |
| `doc` | an object, null or missing |

`Describes` says so of an object and a change, and the reader of changes reads exactly what it says
(`reader_ofJson_iff`). Other members do not count. A line that is no change leaves no trace among the changes of a
connection, wherever it stands.
-/

import DocClient.Feed.Worker
import DocClient.Proofs.Json.Record

namespace DocClient

namespace Json

/-- The text of an integer is its decimal text. -/
theorem ofList_intText (n : Int) : String.ofList (intText n) = toString n := by
  cases n with
  | ofNat n => rfl
  | negSucc n =>
    rw [intText, if_pos (Int.negSucc_lt_zero n)]
    show String.ofList ('-' :: Nat.toDigits 10 (n + 1)) = "-" ++ String.ofList (Nat.toDigits 10 (n + 1))
    rw [← String.toList_inj, String.toList_append, String.toList_ofList, String.toList_ofList, String.toList_ofList]
    rfl

end Json

namespace ChangeRecord

/-- A line lists a revision: under `rev`, or alone in an array. -/
def Lists (v : Json) (rev : Revision) : Prop :=
  v = .arr [.str rev.text] ∨ ∃ o : Object, v = .obj o ∧ o.get? "rev" = some (.str rev.text)

/-- The position that a member holds: a string as it is, an integer as its decimal text. -/
def position? : Json → Option Sequence
  | .str s => some ⟨s⟩
  | .num (.int n) => some ⟨toString n⟩
  | _ => none

/-- An object describes a change. -/
structure Describes (o : Object) (r : ChangeRecord) : Prop where
  seq : ((o.get? "seq" = none ∨ o.get? "seq" = some .null) ∧ r.seq = none)
    ∨ ∃ v p, o.get? "seq" = some v ∧ position? v = some p ∧ r.seq = some p
  id : o.get? "id" = some (.str r.id.text)
  revisions : (o.get? "changes" = none ∧ r.revisions = [])
    ∨ ∃ items, o.get? "changes" = some (.arr items) ∧ List.Forall₂ Lists items r.revisions
  deleted : (o.get? "deleted" = none ∧ r.deleted = false) ∨ o.get? "deleted" = some (.bool r.deleted)
  doc : ((o.get? "doc" = none ∨ o.get? "doc" = some .null) ∧ r.doc = none)
    ∨ ∃ d, o.get? "doc" = some (.obj d) ∧ r.doc = some d

theorem seq_ofJson {v : Json} {p : Sequence} : Sequence.reader.ofJson v = .ok p ↔ position? v = some p := by
  rcases v with - | - | (n | x) | s | - | - <;>
    simp [Reader.ofJson, Draft.ofJson, Sequence.reader, position?, Reader.mismatch, Draft.found?, Json.ofList_intText]

theorem id_ofJson {v : Json} {id : DocId} : DocId.reader.ofJson v = .ok id ↔ v = .str id.text := by
  have h : DocId.reader.ofJson v = (Reader.text.ofJson v).map DocId.mk := rfl
  rw [h, Outcome.map_eq_ok]
  constructor
  · rintro ⟨s, hs, rfl⟩
    exact Reader.text_ofJson.1 hs
  · exact fun hv => ⟨id.text, Reader.text_ofJson.2 hv, rfl⟩

theorem rev_ofJson {v : Json} {rev : Revision} : Revision.reader.ofJson v = .ok rev ↔ v = .str rev.text := by
  have h : Revision.reader.ofJson v = (Reader.text.ofJson v).map Revision.mk := rfl
  rw [h, Outcome.map_eq_ok]
  constructor
  · rintro ⟨s, hs, rfl⟩
    exact Reader.text_ofJson.1 hs
  · exact fun hv => ⟨rev.text, Reader.text_ofJson.2 hv, rfl⟩

/-- A revision is read where one is listed. -/
theorem revision_ofJson {v : Json} (hc : v.Canonical) {rev : Revision} :
    revisionReader.ofJson v = .ok rev ↔ Lists v rev := by
  cases v with
  | obj o =>
    rw [revisionReader, Reader.ofJson_record Fields.checked_field hc.1, Fields.build_field]
    simp [rev_ofJson, Lists]
  | arr items =>
    rcases items with _ | ⟨v, _ | ⟨w, more⟩⟩
    · have h : revisionReader.ofJson (.arr []) = .error (.invalidLength 0 "struct ChangeRev with 1 element") := rfl
      simp [h, Lists]
    · have h : revisionReader.ofJson (.arr [v]) = Revision.reader.ofJson v >>= .ok := rfl
      rw [h, Outcome.bind_eq_ok]
      simp [rev_ofJson, Lists]
    · have hnot : ¬ Lists (.arr (v :: w :: more)) rev := by
        simp [Lists]
      refine iff_of_false (fun h => ?_) hnot
      obtain ⟨o, -, h⟩ := Outcome.bind_eq_ok.1 h
      obtain ⟨a, -, h⟩ := Outcome.bind_eq_ok.1 h
      simp [Draft.ofItems, Fields.field, Fields.single] at h
  | _ => exact iff_of_false (fun h => by cases h) (by simp [Lists])

theorem forall₂_lists {items : List Json} {revs : List Revision} (hc : Json.CanonicalItems items) :
    List.Forall₂ (fun v a => revisionReader.ofJson v = .ok a) items revs ↔ List.Forall₂ Lists items revs := by
  induction items generalizing revs with
  | nil => simp
  | cons v rest ih =>
    rw [Json.CanonicalItems] at hc
    cases revs <;> simp [revision_ofJson hc.1, ih hc.2]

theorem build_seq {o : Object} {seq : Option Sequence} :
    (Fields.nullable "seq" Sequence.reader).build (.ofObject o .value) = .ok seq
      ↔ ((o.get? "seq" = none ∨ o.get? "seq" = some .null) ∧ seq = none)
        ∨ ∃ v p, o.get? "seq" = some v ∧ position? v = some p ∧ seq = some p := by
  rw [Fields.build_nullable]
  refine or_congr Iff.rfl ⟨?_, ?_⟩
  · rintro ⟨v, p, hv, -, hp, rfl⟩
    exact ⟨v, p, hv, seq_ofJson.1 hp, rfl⟩
  · rintro ⟨v, p, hv, hp, rfl⟩
    have hne : v ≠ .null := by
      rintro rfl
      cases hp
    exact ⟨v, p, hv, hne, seq_ofJson.2 hp, rfl⟩

theorem build_id {o : Object} {id : DocId} :
    (Fields.field "id" DocId.reader).build (.ofObject o .value) = .ok id ↔ o.get? "id" = some (.str id.text) := by
  simp [Fields.build_field, id_ofJson]

theorem build_revisions {o : Object} (hc : Json.CanonicalMembers o) {revs : List Revision} :
    (Fields.defaulted "changes" (Reader.list revisionReader) []).build (.ofObject o .value) = .ok revs
      ↔ (o.get? "changes" = none ∧ revs = [])
        ∨ ∃ items, o.get? "changes" = some (.arr items) ∧ List.Forall₂ Lists items revs := by
  have hlist : ∀ items, o.get? "changes" = some (.arr items) →
      (List.Forall₂ (fun v a => revisionReader.ofJson v = .ok a) items revs ↔ List.Forall₂ Lists items revs) :=
    fun items hi => forall₂_lists (hc.of_mem (Table.mem_of_get?_eq_some hi))
  rw [Fields.build_defaulted]
  refine or_congr Iff.rfl ⟨?_, ?_⟩
  · rintro ⟨v, hv, h⟩
    obtain ⟨items, rfl, hrevs⟩ := Reader.list_ofJson.1 h
    exact ⟨items, hv, (hlist items hv).1 hrevs⟩
  · rintro ⟨items, hv, hrevs⟩
    exact ⟨_, hv, Reader.list_ofJson.2 ⟨items, rfl, (hlist items hv).2 hrevs⟩⟩

theorem build_deleted {o : Object} {deleted : Bool} :
    (Fields.defaulted "deleted" Reader.flag false).build (.ofObject o .value) = .ok deleted
      ↔ (o.get? "deleted" = none ∧ deleted = false) ∨ o.get? "deleted" = some (.bool deleted) := by
  simp [Fields.build_defaulted, Reader.flag_ofJson]

theorem build_doc {o : Object} (hc : Json.CanonicalMembers o) {doc : Option Object} :
    (Fields.nullable "doc" Reader.object).build (.ofObject o .value) = .ok doc
      ↔ ((o.get? "doc" = none ∨ o.get? "doc" = some .null) ∧ doc = none)
        ∨ ∃ d, o.get? "doc" = some (.obj d) ∧ doc = some d := by
  rw [Fields.build_nullable]
  refine or_congr Iff.rfl ⟨?_, ?_⟩
  · rintro ⟨v, d, hv, -, hd, rfl⟩
    obtain rfl := (Reader.object_ofJson_iff (hc.of_mem (Table.mem_of_get?_eq_some hv))).1 hd
    exact ⟨d, hv, rfl⟩
  · rintro ⟨d, hd, rfl⟩
    have hcanonical := hc.of_mem (Table.mem_of_get?_eq_some hd)
    exact ⟨_, d, hd, by simp, (Reader.object_ofJson_iff hcanonical).2 rfl, rfl⟩

/-- **An object is read as the change that it describes**, and as none if it describes none. -/
theorem reader_ofJson_iff {o : Object} (hs : o.Sorted) (hc : Json.CanonicalMembers o) {r : ChangeRecord} :
    reader.ofJson (.obj o) = .ok r ↔ Describes o r := by
  have hchecked : (ChangeRecord.mk
      <$> Fields.nullable "seq" Sequence.reader
      <*> Fields.field "id" DocId.reader
      <*> Fields.defaulted "changes" (Reader.list revisionReader) []
      <*> Fields.defaulted "deleted" Reader.flag false
      <*> Fields.nullable "doc" Reader.object).Checked :=
    (((((Fields.checked_nullable.map _).seq Fields.checked_field).seq Fields.checked_defaulted).seq
      Fields.checked_defaulted).seq Fields.checked_nullable)
  rw [reader, Reader.ofJson_record hchecked hs]
  simp only [Fields.build_seq, Fields.build_map, Outcome.bind_eq_ok, Except.ok.injEq]
  constructor
  · rintro ⟨_, ⟨_, ⟨_, ⟨_, ⟨seq, hseq, rfl⟩, id, hid, rfl⟩, revs, hrevs, rfl⟩, deleted, hdeleted, rfl⟩, doc, hdoc, rfl⟩
    exact ⟨build_seq.1 hseq, build_id.1 hid, (build_revisions hc).1 hrevs, build_deleted.1 hdeleted,
      (build_doc hc).1 hdoc⟩
  · rintro ⟨hseq, hid, hrevs, hdeleted, hdoc⟩
    exact ⟨_, ⟨_, ⟨_, ⟨_, ⟨_, build_seq.2 hseq, rfl⟩, _, build_id.2 hid, rfl⟩, _, (build_revisions hc).2 hrevs, rfl⟩, _,
      build_deleted.2 hdeleted, rfl⟩, _, (build_doc hc).2 hdoc, rfl⟩

/-- The change on a line, if the line is one. -/
def ofLine? (line : List Char) : Option ChangeRecord :=
  match Reader.ofText Reader.object (Text.trim line) with
  | .ok o => if o.contains "error" || o.contains "last_seq" then none else (reader.ofJson (.obj o)).toOption
  | .error _ => none

/-- **A line is a change** when it is an object that reports no error, is not the last one, and describes the change. -/
theorem ofLine?_eq_some {line : List Char} {r : ChangeRecord} :
    ofLine? line = some r ↔ ∃ o, Reader.ofText Reader.object (Text.trim line) = .ok o ∧ o.get? "error" = none
      ∧ o.get? "last_seq" = none ∧ Describes o r := by
  rw [ofLine?]
  cases h : Reader.ofText Reader.object (Text.trim line) with
  | error e => simp
  | ok o =>
    obtain ⟨d, hd, hend⟩ := Outcome.bind_eq_ok.1 h
    obtain ⟨-, -, hend⟩ := Outcome.bind_eq_ok.1 hend
    obtain rfl := Except.ok.inj hend
    obtain ⟨hs, hc⟩ := Reader.canonical_of_object hd
    simp only [Except.ok.injEq, exists_eq_left', ← reader_ofJson_iff hs hc]
    cases herror : d.get? "error" <;> cases hlast : d.get? "last_seq" <;>
      cases reader.ofJson (.obj d) <;> simp [Table.contains, herror, hlast, Except.toOption]

end ChangeRecord

namespace Outcome

variable {ε α : Type}

/-- The values of some steps up to the first that fails, and how that one fails. -/
def collect : List (Except ε α) → List α × Option ε
  | [] => ([], none)
  | .ok a :: rest => (a :: (collect rest).1, (collect rest).2)
  | .error e :: _ => ([], some e)

end Outcome

namespace LineReader

variable {ε : Type} (l : LineReader ε)

/-- The document of a change that is to be decoded: one that was asked for, of no deletion, that names a class. -/
def wanted? (r : ChangeRecord) : Option Object :=
  r.doc.filter fun d => l.includeDocs && !r.deleted && (Envelope.classOf? l.classField d).isSome

/-- The change that is delivered for a record; none where the document is to be decoded and cannot be. -/
def change (r : ChangeRecord) : Outcome (Change ε) :=
  match l.wanted? r with
  | some d => (l.dispatch.decode d l.classField).map fun e => r.withDoc (some e)
  | none => .ok (r.withDoc none)

/-- A change that is delivered has what its record has. -/
theorem fields_of_change {r : ChangeRecord} {c : Change ε} (h : l.change r = .ok c) :
    c.seq = r.seq ∧ c.id = r.id ∧ c.revisions = r.revisions ∧ c.deleted = r.deleted := by
  rw [change] at h
  split at h
  · obtain ⟨e, -, rfl⟩ := Outcome.map_eq_ok.1 h
    exact ⟨rfl, rfl, rfl, rfl⟩
  · obtain rfl := Except.ok.inj h
    exact ⟨rfl, rfl, rfl, rfl⟩

/-- The changes of some lines up to the first that fails, and how that one fails. -/
def read (lines : List (List Char)) : List (Change ε) × Option ClientError :=
  Outcome.collect ((lines.filterMap ChangeRecord.ofLine?).map l.change)

/-- A record is delivered, or the feed fails. -/
theorem judgeRecord_eq (r : ChangeRecord) :
    (∃ entry c, l.change r = .ok c ∧ l.judgeRecord r = .deliver entry c)
      ∨ ∃ e, l.change r = .error e ∧ l.judgeRecord r = .fail e := by
  cases hw : l.wanted? r with
  | some d =>
    obtain ⟨hdoc, hasked⟩ := Option.filter_eq_some_iff.1 hw
    obtain ⟨hasked, hclass⟩ := Bool.and_eq_true_iff.1 hasked
    obtain ⟨name, hclass⟩ := Option.isSome_iff_exists.1 hclass
    cases hdecode : l.dispatch.decode d l.classField with
    | ok e =>
      refine .inl ⟨none, r.withDoc (some e), ?_, ?_⟩
      · simp [change, hw, hdecode]
      · simp [judgeRecord, hdoc, hasked, hclass, hdecode]
    | error e =>
      refine .inr ⟨e, ?_, ?_⟩
      · simp [change, hw, hdecode]
      · simp [judgeRecord, hdoc, hasked, hclass, hdecode]
  | none =>
    have hchange : l.change r = .ok (r.withDoc none) := by
      simp [change, hw]
    cases hdoc : r.doc with
    | none => exact .inl ⟨none, _, hchange, by simp [judgeRecord, hdoc]⟩
    | some d =>
      have hnot := Option.filter_eq_none_iff.1 hw d hdoc
      cases hasked : l.includeDocs && !r.deleted with
      | false => exact .inl ⟨none, _, hchange, by simp [judgeRecord, hdoc, hasked]⟩
      | true =>
        have hclass : Envelope.classOf? l.classField d = none := by
          simpa [hasked] using hnot
        exact .inl ⟨some (.noClass r.id), _, hchange, by simp [judgeRecord, hdoc, hasked, hclass]⟩

/-- What becomes of a line: a change comes to what its record comes to, any other line is passed over. -/
theorem judge_eq (line : List Char) :
    match ChangeRecord.ofLine? line with
    | some r => l.judge line = l.judgeRecord r
    | none => ∃ entry, l.judge line = .skip entry := by
  rw [judge, ChangeRecord.ofLine?]
  cases h : Reader.ofText Reader.object (Text.trim line) with
  | error e => cases (Text.trim line).isEmpty <;> simp
  | ok o =>
    have hne : (Text.trim line).isEmpty = false := by
      cases ht : Text.trim line with
      | nil =>
        rw [ht] at h
        cases h
      | cons c rest => rfl
    simp only [hne, Bool.false_eq_true, if_false, judgeObject]
    cases herror : o.get? "error" with
    | some value => simp [Table.contains, herror]
    | none =>
      cases hlast : o.contains "last_seq" with
      | true => simp
      | false => cases hread : ChangeRecord.reader.ofJson (.obj o) <;> simp [Table.contains, herror, Except.toOption]

/-- **A connection delivers the changes among its lines up to the first that fails**, and then fails; if none does, it
ends as it ends. -/
theorem ofLines_eq (ending : VisitEnd) (lines : List (List Char)) :
    (Visit.ofLines l ending lines).changes = (l.read lines).1
      ∧ (Visit.ofLines l ending lines).ending = (l.read lines).2.elim ending .failed := by
  induction lines with
  | nil => exact ⟨rfl, rfl⟩
  | cons line rest ih =>
    obtain ⟨hchanges, hending⟩ := ih
    rw [Visit.ofLines, read]
    have hjudge := l.judge_eq line
    cases h : ChangeRecord.ofLine? line with
    | none =>
      rw [h] at hjudge
      obtain ⟨entry, hj⟩ := hjudge
      rw [hj, List.filterMap_cons_none h]
      exact ⟨hchanges, hending⟩
    | some r =>
      rw [h] at hjudge
      rw [hjudge, List.filterMap_cons_some h, List.map_cons]
      rcases l.judgeRecord_eq r with ⟨entry, c, hc, hj⟩ | ⟨e, he, hj⟩
      · rw [hj, hc]
        exact ⟨congrArg (c :: ·) hchanges, hending⟩
      · rw [hj, he]
        exact ⟨rfl, rfl⟩

end LineReader
end DocClient
