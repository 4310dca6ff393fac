/-
# Views with their rows decoded

A view whose rows are decoded asks for what the view as it comes asks for. Of the rows that come each one is resolved on
its own (`RawRow.Resolves`), or cannot be (`RawRow.Fails`):

| documents asked for | the row has | it resolves to |
| --- | --- | --- |
| yes | a document | the entity that the document is read as |
| yes | no document, whatever its value | nothing: the document is missing |
| no | the null value | no value |
| no | another value | what the value is read as |

If each row resolves the rows stay in their places and the rest of the reply stays as it is (`ViewRows.Decodes`);
otherwise the first row that fails is the failure of all (`Client.view_of_rawView`).
-/

import DocClient.Proofs.Client
import DocClient.Store.View

namespace DocClient

variable {β : Type}

theorem Json.isNull_iff {v : Json} : v.isNull = true ↔ v = .null := by
  cases v <;> simp [isNull]

namespace RawRow

/-- What a row resolves to, as documents were asked for or not. -/
inductive Resolves (r : Reader β) (classField : String) (row : RawRow) : Bool → Option β → Prop
  | document {doc : Object} {b : β} (hdoc : row.doc = some doc) (hread : Envelope.decode r classField doc = .ok b) :
    Resolves r classField row true (some b)
  | null (hnull : row.value = .null) : Resolves r classField row false none
  | value {b : β} (hvalue : row.value ≠ .null) (hread : Envelope.decodeValue r classField row.value = .ok b) :
    Resolves r classField row false (some b)

/-- How a row fails to resolve. -/
inductive Fails (r : Reader β) (classField : String) (row : RawRow) : Bool → ClientError → Prop
  | noDocument (hdoc : row.doc = none) : Fails r classField row true (.missingDocument (row.id.elim "" DocId.text))
  | document {doc : Object} {e : ClientError} (hdoc : row.doc = some doc)
    (hread : Envelope.decode r classField doc = .error e) : Fails r classField row true e
  | value {e : ClientError} (hvalue : row.value ≠ .null)
    (hread : Envelope.decodeValue r classField row.value = .error e) : Fails r classField row false e

variable {r : Reader β} {classField : String} {includeDocs : Bool} {row : RawRow}

/-- A row that resolves is decoded, under its name and its key. -/
theorem Resolves.decode_eq {value : Option β} (h : row.Resolves r classField includeDocs value) :
    row.decode r classField includeDocs = .ok ⟨row.id, row.key, value⟩ := by
  cases h with
  | document hdoc hread => simp [decode, hdoc, hread]
  | null hnull => simp [decode, Json.isNull_iff.2 hnull]
  | value hvalue hread => simp [decode, mt Json.isNull_iff.1 hvalue, hread]

/-- A row that fails is the failure of decoding it. -/
theorem Fails.decode_eq {e : ClientError} (h : row.Fails r classField includeDocs e) :
    row.decode r classField includeDocs = .error e := by
  cases h with
  | noDocument hdoc => cases hid : row.id <;> simp [decode, hdoc, hid]
  | document hdoc hread => simp [decode, hdoc, hread]
  | value hvalue hread => simp [decode, mt Json.isNull_iff.1 hvalue, hread]

/-- **A row resolves or fails.** -/
theorem resolves_or_fails (r : Reader β) (classField : String) (includeDocs : Bool) (row : RawRow) :
    (∃ value, row.Resolves r classField includeDocs value) ∨ ∃ e, row.Fails r classField includeDocs e := by
  cases includeDocs with
  | true =>
    cases hdoc : row.doc with
    | none => exact .inr ⟨_, .noDocument hdoc⟩
    | some doc =>
      cases hread : Envelope.decode r classField doc with
      | ok b => exact .inl ⟨some b, .document hdoc hread⟩
      | error e => exact .inr ⟨e, .document hdoc hread⟩
  | false =>
    by_cases hvalue : row.value = .null
    · exact .inl ⟨none, .null hvalue⟩
    · cases hread : Envelope.decodeValue r classField row.value with
      | ok b => exact .inl ⟨some b, .value hvalue hread⟩
      | error e => exact .inr ⟨e, .value hvalue hread⟩

theorem decode_eq_ok_iff {decoded : ViewRow β} : row.decode r classField includeDocs = .ok decoded
    ↔ decoded.id = row.id ∧ decoded.key = row.key ∧ row.Resolves r classField includeDocs decoded.value := by
  constructor
  · intro h
    rcases row.resolves_or_fails r classField includeDocs with ⟨value, hvalue⟩ | ⟨e, he⟩
    · rw [hvalue.decode_eq] at h
      obtain rfl := Except.ok.inj h
      exact ⟨rfl, rfl, hvalue⟩
    · rw [he.decode_eq] at h
      exact nomatch h
  · obtain ⟨id, key, value⟩ := decoded
    rintro ⟨rfl, rfl, hvalue⟩
    exact hvalue.decode_eq

theorem decode_eq_error_iff {e : ClientError} :
    row.decode r classField includeDocs = .error e ↔ row.Fails r classField includeDocs e := by
  refine ⟨fun h => ?_, Fails.decode_eq⟩
  rcases row.resolves_or_fails r classField includeDocs with ⟨value, hvalue⟩ | ⟨e', he'⟩
  · rw [hvalue.decode_eq] at h
    exact nomatch h
  · rw [he'.decode_eq] at h
    exact Except.error.inj h ▸ he'

theorem exists_decode_iff : (∃ decoded, row.decode r classField includeDocs = .ok decoded)
    ↔ ∃ value, row.Resolves r classField includeDocs value := by
  simp only [decode_eq_ok_iff]
  exact ⟨fun ⟨decoded, _, _, h⟩ => ⟨decoded.value, h⟩, fun ⟨value, h⟩ => ⟨⟨row.id, row.key, value⟩, rfl, rfl, h⟩⟩

/-- A row resolves to no value exactly if documents were not asked for and its value is null. -/
theorem Resolves.eq_none_iff {value : Option β} (h : row.Resolves r classField includeDocs value) :
    value = none ↔ includeDocs = false ∧ row.value = .null := by
  cases h with
  | document => simp
  | null hnull => simp [hnull]
  | value hvalue => simp [hvalue]

/-- The rows that have a value, as documents were asked for or not. -/
def hasValue (includeDocs : Bool) (row : RawRow) : Bool := includeDocs || !row.value.isNull

theorem Resolves.hasValue_eq {value : Option β} (h : row.Resolves r classField includeDocs value) :
    row.hasValue includeDocs = value.isSome := by
  cases h with
  | document => rfl
  | null hnull => simp [hasValue, Json.isNull_iff.2 hnull]
  | value hvalue => simp [hasValue, mt Json.isNull_iff.1 hvalue]

end RawRow

namespace ViewRows

/-- **The rows as they resolve:** each in its place with its name and its key, and the rest of the reply as it is. -/
structure Decodes (r : Reader β) (classField : String) (includeDocs : Bool) (raw : RawRows) (v : ViewRows β) :
    Prop where
  rows : List.Forall₂ (fun row decoded => decoded.id = row.id ∧ decoded.key = row.key
    ∧ row.Resolves r classField includeDocs decoded.value) raw.rows v.rows
  offset : v.offset = raw.offset
  totalRows : v.totalRows = raw.totalRows
  updateSeq : v.updateSeq = raw.updateSeq

variable {r : Reader β} {classField : String} {includeDocs : Bool} {raw : RawRows} {v : ViewRows β}

/-- **A row has no value exactly if documents were not asked for and its value is null.** -/
theorem Decodes.value_eq_none_iff (h : Decodes r classField includeDocs raw v) {i : Nat} {row : RawRow}
    {decoded : ViewRow β} (hrow : raw.rows[i]? = some row) (hdecoded : v.rows[i]? = some decoded) :
    decoded.value = none ↔ includeDocs = false ∧ row.value = .null := by
  obtain ⟨hi, rfl⟩ := List.getElem?_eq_some_iff.1 hrow
  obtain ⟨hj, rfl⟩ := List.getElem?_eq_some_iff.1 hdecoded
  obtain ⟨-, -, hresolves⟩ := h.rows.get hi hj
  exact hresolves.eq_none_iff

/-- **The values are what the rows with a value resolve to**, in their order. -/
theorem Decodes.values (h : Decodes r classField includeDocs raw v) :
    List.Forall₂ (fun row b => row.Resolves r classField includeDocs (some b))
      (raw.rows.filter (RawRow.hasValue includeDocs)) v.values := by
  have hrows := h.rows
  rw [ViewRows.values]
  generalize raw.rows = rows, v.rows = decoded at hrows
  induction hrows with
  | nil => exact .nil
  | @cons row decoded rows later hrow _ ih =>
    obtain ⟨-, -, hresolves⟩ := hrow
    have hvalue := hresolves.hasValue_eq
    cases hdecoded : decoded.value with
    | none =>
      rw [hdecoded] at hvalue
      rwa [List.filter_cons_of_neg (by simp [hvalue]), List.filterMap_cons_none hdecoded]
    | some b =>
      rw [hdecoded] at hvalue hresolves
      rw [List.filter_cons_of_pos hvalue, List.filterMap_cons_some hdecoded]
      exact .cons hresolves ih

end ViewRows

namespace Client

variable (c : Client) (r : Reader β) {includeDocs : Bool} {raw : RawRows}

/-- Rows are decoded as they resolve. -/
theorem decodeRows_eq_ok_iff {v : ViewRows β} : c.decodeRows r includeDocs raw = .ok v
    ↔ ViewRows.Decodes r c.settings.classField includeDocs raw v := by
  simp only [decodeRows, Outcome.bind_eq_ok, Outcome.mapM_eq_ok_iff, RawRow.decode_eq_ok_iff]
  constructor
  · rintro ⟨rows, hrows, h⟩
    obtain rfl := Except.ok.inj h
    exact ⟨hrows, rfl, rfl, rfl⟩
  · obtain ⟨rows, offset, totalRows, updateSeq⟩ := v
    rintro ⟨hrows, rfl, rfl, rfl⟩
    exact ⟨rows, hrows, rfl⟩

/-- Rows are decoded if each of them resolves. -/
theorem exists_decodeRows_iff : (∃ v, c.decodeRows r includeDocs raw = .ok v)
    ↔ ∀ row ∈ raw.rows, ∃ value, row.Resolves r c.settings.classField includeDocs value := by
  simp only [← RawRow.exists_decode_iff, ← Outcome.exists_mapM_iff, decodeRows, Outcome.bind_eq_ok]
  exact ⟨fun ⟨_, rows, hrows, _⟩ => ⟨rows, hrows⟩, fun ⟨rows, hrows⟩ => ⟨_, rows, hrows, rfl⟩⟩

/-- The first row that fails is the failure of all. -/
theorem decodeRows_eq_error_iff {e : ClientError} : c.decodeRows r includeDocs raw = .error e
    ↔ ∃ before row after, raw.rows = before ++ row :: after
      ∧ (∀ b ∈ before, ∃ value, b.Resolves r c.settings.classField includeDocs value)
      ∧ row.Fails r c.settings.classField includeDocs e := by
  have hrows : c.decodeRows r includeDocs raw = .error e
      ↔ raw.rows.mapM (RawRow.decode r c.settings.classField includeDocs) = .error e := by
    rw [decodeRows]
    cases raw.rows.mapM (RawRow.decode r c.settings.classField includeDocs) <;> simp
  rw [hrows, Outcome.mapM_eq_error_iff]
  simp only [RawRow.exists_decode_iff, RawRow.decode_eq_error_iff]

/-- **A view with its rows decoded is the view as it comes, with each row resolved.** Both send the same request or
none, and where the view as it comes fails the other fails alike. The rows that come are decoded exactly if each of them
resolves, and then as they resolve; otherwise the failure is that of the first row that fails. -/
theorem view_of_rawView (db : DatabaseName) (design : DocId) (name : String) (request : ViewRequest) (routes : Routes) :
    let typed := c.view r db design name request routes
    let plain := c.rawView db design name request routes
    typed.1.request? = plain.1.request? ∧ typed.2 = plain.2
    ∧ ∀ answer,
      (∀ e, plain.1.result answer = .error e → typed.1.result answer = .error e)
      ∧ ∀ raw, plain.1.result answer = .ok raw →
        ((∃ v, typed.1.result answer = .ok v)
          ↔ ∀ row ∈ raw.rows, ∃ value, row.Resolves r c.settings.classField request.includeDocs value)
        ∧ (∀ v, typed.1.result answer = .ok v
          ↔ ViewRows.Decodes r c.settings.classField request.includeDocs raw v)
        ∧ (∀ v, typed.1.result answer = .ok v →
          (∀ (i : Nat) (row : RawRow) (decoded : ViewRow β), raw.rows[i]? = some row → v.rows[i]? = some decoded →
            (decoded.value = none ↔ request.includeDocs = false ∧ row.value = .null))
          ∧ List.Forall₂ (fun row b => row.Resolves r c.settings.classField request.includeDocs (some b))
            (raw.rows.filter (RawRow.hasValue request.includeDocs)) v.values)
        ∧ ∀ e, typed.1.result answer = .error e
          ↔ ∃ before row after, raw.rows = before ++ row :: after
            ∧ (∀ b ∈ before, ∃ value, b.Resolves r c.settings.classField request.includeDocs value)
            ∧ row.Fails r c.settings.classField request.includeDocs e := by
  intro typed plain
  have hresult : ∀ answer, typed.1.result answer
      = (plain.1.result answer).bind (c.decodeRows r request.includeDocs) := Call.result_andThen _ _
  refine ⟨Call.request?_andThen _ _, rfl, fun answer => ⟨fun e he => ?_, fun raw hraw => ?_⟩⟩
  · rw [hresult, he]
    rfl
  · have hview : typed.1.result answer = c.decodeRows r request.includeDocs raw := by
      rw [hresult, hraw]
      rfl
    rw [hview]
    refine ⟨c.exists_decodeRows_iff r, fun v => c.decodeRows_eq_ok_iff r, fun v hv => ?_,
      fun e => c.decodeRows_eq_error_iff r⟩
    have hdecodes := (c.decodeRows_eq_ok_iff r).1 hv
    exact ⟨fun i row decoded => hdecodes.value_eq_none_iff, hdecodes.values⟩

/-- A row with a document and without a value, and one with a value and without a document. -/
def sampleHalves : RawRows :=
  ⟨[⟨some ⟨"a"⟩, .null, .null, some [("n", .null)]⟩, ⟨some ⟨"b"⟩, .null, .bool true, none⟩], none, none, none⟩

/-- The two rows as they come. -/
def sampleHalvesText : String :=
  "\x7b\"rows\":[\x7b\"id\":\"a\",\"doc\":\x7b\"n\":null\x7d\x7d,\x7b\"id\":\"b\",\"value\":true\x7d]\x7d"

/-- The answer that gives the two rows. -/
def sampleHalvesAnswer : Answer := .answered 200 (Text.encode sampleHalvesText.toList) .closed

/-- With documents the second row fails, its value notwithstanding; without, the first row has no value. -/
theorem view_of_rawView_sampleHalves :
    (Client.sample.view Reader.json ⟨"db"⟩ ⟨"d"⟩ "v" { includeDocs := true } .sample).1.result sampleHalvesAnswer
        = .error (.missingDocument "b")
    ∧ (Client.sample.view Reader.json ⟨"db"⟩ ⟨"d"⟩ "v" {} .sample).1.result sampleHalvesAnswer
        = .ok ⟨[⟨some ⟨"a"⟩, .null, none⟩, ⟨some ⟨"b"⟩, .null, some (.bool true)⟩], none, none, none⟩ := by
  have hviews := fun request => Client.sample.view_of_rawView Reader.json ⟨"db"⟩ ⟨"d"⟩ "v" request .sample
  obtain ⟨-, -, hwith⟩ := hviews { includeDocs := true }
  obtain ⟨-, -, hwithout⟩ := hviews {}
  constructor
  · obtain ⟨-, -, -, herror⟩ := (hwith sampleHalvesAnswer).2 sampleHalves (by decide +kernel)
    refine (herror _).2 ⟨sampleHalves.rows.take 1, _, [], rfl, fun b hb => ?_, .noDocument rfl⟩
    obtain rfl := List.mem_singleton.1 hb
    exact ⟨_, .document rfl rfl⟩
  · obtain ⟨-, hok, -⟩ := (hwithout sampleHalvesAnswer).2 sampleHalves (by decide +kernel)
    exact (hok _).2 ⟨.cons ⟨rfl, rfl, .null rfl⟩ (.cons ⟨rfl, rfl, .value (by decide) rfl⟩ .nil), rfl, rfl, rfl⟩

end Client
end DocClient
