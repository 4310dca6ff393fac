/-
# What comes of a batch of reads

The reply to a batch of reads is a list of entries, and each of them goes into one of three lists
(`BatchRead.ofEntries_eq`):

| entry | goes into | in the name of |
| --- | --- | --- |
| a live document | the entities, decoded | its own `_id` |
| a document that only says that it was deleted | the deleted documents | the item that it stands in |
| an error | the errors | the error |

Nothing of the reply is left out, and nothing else goes in: what comes of a batch accounts for a name exactly if an
entry of the reply has that name (`BatchRead.Tells.named`). The reply is not held against the request, so a name that
was asked for and that no entry has is nowhere (`Client.readBatchIn_unanswered`).
-/

import DocClient.Proofs.Store.Calls
import DocClient.Store.Batch

namespace DocClient

namespace BatchEntry

/-- The live document of an entry, if it is one. -/
def live? (found : String × BatchEntry) : Option Object :=
  match found.2 with
  | .document d => if Envelope.isTombstone d then none else some d
  | .error _ => none

/-- The error of an entry, if it is one. -/
def failure? (found : String × BatchEntry) : Option BulkReadError :=
  match found.2 with
  | .document _ => none
  | .error e => some e

/-- The name of the item of an entry, if the entry only says that the document was deleted. -/
def gone? (found : String × BatchEntry) : Option DocId :=
  match found.2 with
  | .document d => if Envelope.isTombstone d then some ⟨found.1⟩ else none
  | .error _ => none

/-- The name that an entry goes by in what comes of a batch; a live document may have none. -/
def name? (found : String × BatchEntry) : Option String :=
  match found.2 with
  | .document d => if Envelope.isTombstone d then some found.1 else (d.get? "_id").bind Json.str?
  | .error e => some e.id

end BatchEntry

namespace BatchRead

open BatchEntry

variable {ε : Type} {D : Dispatch ε} {classField : String} {found : List (String × BatchEntry)} {b : BatchRead ε}

/-- What comes of some entries. -/
def ofEntries (D : Dispatch ε) (classField : String) (found : List (String × BatchEntry)) : Outcome (BatchRead ε) :=
  found.foldr (fun entry rest => cons D classField entry.1 entry.2 rest) (.ok {})

/-- **The live documents are decoded in their order**, and the first that is not is the failure of all; the errors and
the names of the deleted documents stand beside them. -/
theorem ofEntries_eq (D : Dispatch ε) (classField : String) (found : List (String × BatchEntry)) :
    ofEntries D classField found
      = ((found.filterMap live?).mapM fun d => D.decode d classField).map fun entities =>
          { entities, errors := found.filterMap failure?, deleted := found.filterMap gone? } := by
  induction found with
  | nil => rfl
  | cons entry rest ih =>
    obtain ⟨id, entry⟩ := entry
    rw [ofEntries, List.foldr_cons, ← ofEntries, ih]
    cases entry with
    | error e =>
      simp only [cons, List.filterMap_cons, live?, failure?, gone?]
      cases (rest.filterMap live?).mapM fun d => D.decode d classField <;> rfl
    | document d =>
      cases hgone : Envelope.isTombstone d with
      | true =>
        simp only [cons, List.filterMap_cons, live?, failure?, gone?, hgone, if_true]
        cases (rest.filterMap live?).mapM fun d => D.decode d classField <;> rfl
      | false =>
        simp only [cons, List.filterMap_cons, live?, failure?, gone?, hgone, Bool.false_eq_true, if_false,
          List.mapM_cons]
        cases D.decode d classField with
        | error e => rfl
        | ok e => cases (rest.filterMap live?).mapM fun d => D.decode d classField <;> rfl

/-- What came of a batch accounts for a name: a live document of that name was decoded, or an error has the name, or a
document of that name was deleted. -/
def AccountsFor (D : Dispatch ε) (classField : String) (found : List (String × BatchEntry)) (b : BatchRead ε)
    (name : String) : Prop :=
  (∃ d ∈ found.filterMap live?, d.get? "_id" = some (.str name) ∧ ∃ e ∈ b.entities, D.decode d classField = .ok e)
    ∨ (∃ e ∈ b.errors, e.id = name) ∨ ⟨name⟩ ∈ b.deleted

/-- **What a batch of reads tells of the entries of its reply.** -/
structure Tells (D : Dispatch ε) (classField : String) (found : List (String × BatchEntry)) (b : BatchRead ε) :
    Prop where
  /-- Every live document is decoded, in its place among them. -/
  entities : ((found.filterMap live?).mapM fun d => D.decode d classField) = .ok b.entities
  errors : b.errors = found.filterMap failure?
  deleted : b.deleted = found.filterMap gone?
  /-- Every entry is in one of the three lists. -/
  counted : b.entities.length + b.errors.length + b.deleted.length = found.length
  /-- The names that are accounted for are those of the entries. -/
  named : ∀ name, AccountsFor D classField found b name ↔ ∃ entry ∈ found, name? entry = some name

/-- Every entry is of one of the three kinds. -/
theorem length_live_failure_gone (found : List (String × BatchEntry)) :
    (found.filterMap live?).length + (found.filterMap failure?).length + (found.filterMap gone?).length
      = found.length := by
  induction found with
  | nil => rfl
  | cons entry rest ih =>
    obtain ⟨id, entry⟩ := entry
    cases entry with
    | error e =>
      simp only [List.filterMap_cons, live?, failure?, gone?, List.length_cons]
      omega
    | document d =>
      cases hgone : Envelope.isTombstone d <;>
        simp only [List.filterMap_cons, live?, failure?, gone?, hgone, Bool.false_eq_true, if_false, if_true,
          List.length_cons] <;>
        omega

/-- The name of an entry is the name of a live document, of an error or of an item. -/
theorem name?_eq_some {entry : String × BatchEntry} {name : String} :
    name? entry = some name ↔ (∃ d, live? entry = some d ∧ d.get? "_id" = some (.str name))
      ∨ (∃ e, failure? entry = some e ∧ e.id = name) ∨ gone? entry = some ⟨name⟩ := by
  obtain ⟨id, entry⟩ := entry
  cases entry with
  | error e => simp [name?, live?, failure?, gone?]
  | document d =>
    cases hgone : Envelope.isTombstone d <;> simp [name?, live?, failure?, gone?, hgone, Json.bind_str?_eq_some]

/-- **Something comes of entries exactly if they are told apart into it.** -/
theorem ofEntries_eq_ok : ofEntries D classField found = .ok b ↔ Tells D classField found b := by
  rw [ofEntries_eq, Outcome.map_eq_ok]
  constructor
  · rintro ⟨entities, hentities, rfl⟩
    refine ⟨hentities, rfl, rfl, ?_, fun name => ?_⟩
    · have hlength := length_live_failure_gone found
      rwa [← Outcome.length_of_mapM hentities] at hlength
    · simp only [name?_eq_some, AccountsFor, List.mem_filterMap]
      constructor
      · rintro (⟨d, ⟨entry, hentry, hlive⟩, hid, -⟩ | ⟨e, ⟨entry, hentry, hfailure⟩, hid⟩ | ⟨entry, hentry, hgone⟩)
        · exact ⟨entry, hentry, .inl ⟨d, hlive, hid⟩⟩
        · exact ⟨entry, hentry, .inr (.inl ⟨e, hfailure, hid⟩)⟩
        · exact ⟨entry, hentry, .inr (.inr hgone)⟩
      · rintro ⟨entry, hentry, ⟨d, hlive, hid⟩ | ⟨e, hfailure, hid⟩ | hgone⟩
        · obtain ⟨e, hmem, he⟩ := Outcome.exists_of_mapM hentities (List.mem_filterMap.2 ⟨entry, hentry, hlive⟩)
          exact .inl ⟨d, ⟨entry, hentry, hlive⟩, hid, e, hmem, he⟩
        · exact .inr (.inl ⟨e, ⟨entry, hentry, hfailure⟩, hid⟩)
        · exact .inr (.inr ⟨entry, hentry, hgone⟩)
  · intro h
    refine ⟨b.entities, h.entities, ?_⟩
    rw [← h.errors, ← h.deleted]

/-- **Something comes of entries unless a live document cannot be decoded,** and then the first of these is the
failure. -/
theorem ofEntries_spec (D : Dispatch ε) (classField : String) (found : List (String × BatchEntry)) :
    (∃ b, ofEntries D classField found = .ok b ∧ Tells D classField found b)
      ∨ ∃ before d after e, found.filterMap live? = before ++ d :: after
          ∧ (∃ es, (before.mapM fun d => D.decode d classField) = .ok es)
          ∧ D.decode d classField = .error e ∧ ofEntries D classField found = .error e := by
  rcases Outcome.mapM_spec (fun d => D.decode d classField) (found.filterMap live?) with
    ⟨es, hes⟩ | ⟨before, d, after, e, hsplit, hbefore, hd, herror⟩
  · have hb : ofEntries D classField found = .ok ⟨es, found.filterMap failure?, found.filterMap gone?⟩ := by
      rw [ofEntries_eq, hes, Outcome.map_ok]
    exact .inl ⟨_, hb, ofEntries_eq_ok.1 hb⟩
  · exact .inr ⟨before, d, after, e, hsplit, hbefore, hd, by rw [ofEntries_eq, herror, Outcome.map_error]⟩

end BatchRead

namespace Client

open BatchRead

variable {ε : Type} {c : Client} {D : Dispatch ε} {db : DatabaseName} {ids : List DocId} {routes : Routes}
  {answer : Answer}

theorem forM_requireId (h : ∀ id ∈ ids, id.isBlank = false) : ids.forM requireId = .ok () := by
  induction ids with
  | nil => rfl
  | cons id rest ih =>
    obtain ⟨hid, hrest⟩ := List.forall_mem_cons.1 h
    rw [List.forM_eq_forM] at ih ⊢
    rw [List.forM_cons, requireId_eq hid, Outcome.ok_bind, ih hrest]

/-- Documents that have names are asked for. -/
theorem readBatchIn_eq (hids : ids ≠ []) (hnamed : ∀ id ∈ ids, id.isBlank = false) :
    (c.readBatchIn db ids D routes).1
      = c.call .post [db.text, "_bulk_get"] none (some (batchIds ids)) (c.batchRead D) := by
  simp [readBatchIn, guarded, forM_requireId hnamed, hids]

/-- Of a batch of reads that is sent comes what its reply is taken for. -/
theorem takes_readBatchIn (D : Dispatch ε) (db : DatabaseName) (ids : List DocId) :
    (c.readBatchIn db ids D routes).1.Takes .post (c.batchRead D) := by
  simp only [readBatchIn, guarded]
  cases ids.forM requireId with
  | error e => exact .done _
  | ok _ =>
    dsimp only
    split
    · exact .done _
    · exact takes_call ..

/-- What comes of a call is made of the reply, whatever was sent. -/
theorem result_call {α : Type} (c : Client) (method : Method) (path : List String)
    (options : Option (List (String × String))) (body : Option Json) (receive : Reply → Outcome α) (answer : Answer) :
    (c.call method path options body receive).result answer
      = if (Url.parse? (c.locate path)).isSome then answer.reply?.elim (.error .http) receive else .error .http := by
  cases hlocated : Url.parse? (c.locate path) with
  | none => simp [call, request?, hlocated, Call.result]
  | some u =>
    simp only [call, request?, hlocated, Option.map_some, Call.result, Option.isSome_some, if_true]
    cases answer.reply? <;> rfl

/-- **Something comes of a reply exactly if it is a list of entries that are told apart into it.** -/
theorem batchRead_eq_ok {reply : Reply} {b : BatchRead ε} :
    c.batchRead D reply = .ok b ↔ reply.status = 200 ∧ ∃ items,
      Reader.ofText BatchItem.listReader reply.text.toList = .ok items
        ∧ Tells D c.settings.classField (entries items) b := by
  rw [batchRead]
  split
  · rename_i hstatus
    rw [Outcome.bind_eq_ok]
    simp only [Outcome.ofRead_eq_ok, hstatus, true_and]
    exact exists_congr fun items => and_congr_right fun _ => ofEntries_eq_ok
  · rename_i hstatus
    simp [hstatus]

/-- What comes of a batch of reads comes of a reply of entries. -/
theorem exists_reply_of_readBatchIn (hids : ids ≠ []) (hnamed : ∀ id ∈ ids, id.isBlank = false) {b : BatchRead ε}
    (hb : (c.readBatchIn db ids D routes).1.result answer = .ok b) :
    ∃ reply items, answer.reply? = some reply ∧ reply.status = 200
      ∧ Reader.ofText BatchItem.listReader reply.text.toList = .ok items
      ∧ Tells D c.settings.classField (entries items) b := by
  rw [readBatchIn_eq hids hnamed, result_call] at hb
  split at hb
  · cases hreply : answer.reply? with
    | none => simp [hreply] at hb
    | some reply =>
      rw [hreply, Option.elim_some] at hb
      obtain ⟨hstatus, items, hread, htells⟩ := batchRead_eq_ok.1 hb
      exact ⟨reply, items, rfl, hstatus, hread, htells⟩
  · simp at hb

/-- A batch of reads that is sent comes to what its entries come to. -/
theorem result_readBatchIn (hids : ids ≠ []) (hnamed : ∀ id ∈ ids, id.isBlank = false) {r : Request} {reply : Reply}
    {items : List BatchItem} (hsent : (c.readBatchIn db ids D routes).1.request? = some r)
    (hreply : answer.reply? = some reply) (hstatus : reply.status = 200)
    (hread : Reader.ofText BatchItem.listReader reply.text.toList = .ok items) :
    (c.readBatchIn db ids D routes).1.result answer = ofEntries D c.settings.classField (entries items) := by
  rw [readBatchIn_eq hids hnamed] at hsent ⊢
  rw [request?_call] at hsent
  obtain ⟨u, hu, -⟩ := Option.map_eq_some_iff.1 hsent
  rw [result_call, hu, hreply]
  simp [batchRead, hstatus, hread, ofItems, ofEntries]

/-- **A batch of reads tells of every entry of its reply**, and of nothing else: it accounts for those names that the
entries have, whatever names were asked for. Of a reply with entries something comes unless a live document cannot be
decoded, and then the first of these is the failure. -/
theorem readBatchIn_accounted (c : Client) (D : Dispatch ε) (db : DatabaseName) (ids : List DocId) (hids : ids ≠ [])
    (hnamed : ∀ id ∈ ids, id.isBlank = false) (routes : Routes) (answer : Answer) :
    (∀ b, (c.readBatchIn db ids D routes).1.result answer = .ok b →
      ∃ reply items, answer.reply? = some reply ∧ reply.status = 200
        ∧ Reader.ofText BatchItem.listReader reply.text.toList = .ok items
        ∧ Tells D c.settings.classField (entries items) b)
    ∧ (∀ r reply items, (c.readBatchIn db ids D routes).1.request? = some r → answer.reply? = some reply →
        reply.status = 200 → Reader.ofText BatchItem.listReader reply.text.toList = .ok items →
        (∃ b, (c.readBatchIn db ids D routes).1.result answer = .ok b
          ∧ Tells D c.settings.classField (entries items) b)
        ∨ ∃ before d after e, (entries items).filterMap BatchEntry.live? = before ++ d :: after
          ∧ (∃ es, (before.mapM fun d => D.decode d c.settings.classField) = .ok es)
          ∧ D.decode d c.settings.classField = .error e
          ∧ (c.readBatchIn db ids D routes).1.result answer = .error e)
    ∧ ∀ others : List DocId, others ≠ [] → (∀ id ∈ others, id.isBlank = false) →
        (c.readBatchIn db others D routes).1.result answer = (c.readBatchIn db ids D routes).1.result answer := by
  refine ⟨fun b hb => exists_reply_of_readBatchIn hids hnamed hb, fun r reply items hsent hreply hstatus hread => ?_,
    fun others hothers hnamedOthers => ?_⟩
  · rw [result_readBatchIn hids hnamed hsent hreply hstatus hread]
    exact ofEntries_spec D c.settings.classField (entries items)
  · rw [readBatchIn_eq hothers hnamedOthers, readBatchIn_eq hids hnamed, result_call, result_call]

/-- A dispatch that knows the entities with a label. -/
def sampleDispatch : Dispatch StockEntity := Dispatch.single EntityKind.test.type ⟨⟨"db"⟩, ⟨"Test"⟩⟩

/-- Three items: a live document, one that was deleted, and one that never was there. -/
def sampleItems : List BatchItem :=
  [⟨"a", [.document [("_id", .str "a"), ("class__", .str "Test"), ("label", .str "x")]]⟩,
    ⟨"b", [.document [("_deleted", .bool true), ("_id", .str "b")]]⟩,
    ⟨"c", [.error ⟨"c", none, "not_found", none⟩]⟩]

/-- The reply of a server with these items. -/
def sampleFound : Reply where
  status := 200
  text := "\x7b\"results\":["
    ++ "\x7b\"id\":\"a\",\"docs\":[\x7b\"ok\":\x7b\"_id\":\"a\",\"class__\":\"Test\",\"label\":\"x\"\x7d\x7d]\x7d,"
    ++ "\x7b\"id\":\"b\",\"docs\":[\x7b\"ok\":\x7b\"_id\":\"b\",\"_deleted\":true\x7d\x7d]\x7d,"
    ++ "\x7b\"id\":\"c\",\"docs\":[\x7b\"error\":\x7b\"id\":\"c\",\"error\":\"not_found\"\x7d\x7d]\x7d]\x7d"

/-- Each of three documents that were asked for is accounted for, in a list of its own. -/
theorem readBatchIn_accounted_sample : ∃ b,
    (sample.readBatchIn ⟨"db"⟩ [⟨"a"⟩, ⟨"b"⟩, ⟨"c"⟩] sampleDispatch .sample).1.result sampleFound.answer = .ok b
      ∧ b.entities.length = 1 ∧ b.errors.map BulkReadError.id = ["c"] ∧ b.deleted = [⟨"b"⟩]
      ∧ ∀ name ∈ ["a", "b", "c"], AccountsFor sampleDispatch "class__" (entries sampleItems) b name := by
  obtain ⟨-, hcomes, -⟩ := readBatchIn_accounted sample sampleDispatch ⟨"db"⟩ [⟨"a"⟩, ⟨"b"⟩, ⟨"c"⟩] (by simp)
    (by decide) .sample sampleFound.answer
  obtain ⟨r, hr⟩ : ∃ r, (sample.readBatchIn ⟨"db"⟩ [⟨"a"⟩, ⟨"b"⟩, ⟨"c"⟩] sampleDispatch .sample).1.request? = some r :=
    Option.isSome_iff_exists.1 (by decide +kernel)
  have hread : Reader.ofText BatchItem.listReader sampleFound.text.toList = .ok sampleItems := by decide +kernel
  rcases hcomes r sampleFound _ hr sampleFound.reply?_answer rfl hread with
    ⟨b, hb, htells⟩ | ⟨before, d, after, e, hsplit, -, hfails, -⟩
  · refine ⟨b, hb, ?_, ?_, ?_, fun name hname => (htells.named name).2 ?_⟩
    · exact Outcome.length_of_mapM htells.entities
    · rw [htells.errors]
      rfl
    · rw [htells.deleted]
      rfl
    · simp only [List.mem_cons, List.not_mem_nil, or_false] at hname
      rcases hname with rfl | rfl | rfl <;> decide
  · have hmem : d ∈ before ++ d :: after := List.mem_append_right _ (List.mem_cons_self ..)
    rw [← hsplit] at hmem
    obtain rfl : d = [("_id", .str "a"), ("class__", .str "Test"), ("label", .str "x")] := List.mem_singleton.1 hmem
    exact nomatch hfails

/-- The reply of a server that says nothing. -/
def sampleSilence : Reply := ⟨200, "\x7b\"results\":[]\x7d"⟩

/-- **A document that the server says nothing of is in none of the three lists**: something came of the batch. -/
theorem readBatchIn_unanswered : ∃ b,
    (sample.readBatchIn ⟨"db"⟩ [⟨"a"⟩] sampleDispatch .sample).1.result sampleSilence.answer = .ok b
      ∧ b.entities = [] ∧ b.errors = [] ∧ b.deleted = [] := by
  have hread : Reader.ofText BatchItem.listReader sampleSilence.text.toList = .ok [] := by decide +kernel
  refine ⟨{}, ?_, rfl, rfl, rfl⟩
  rw [readBatchIn_eq (by simp) (by decide), result_call, if_pos (by decide +kernel), sampleSilence.reply?_answer,
    Option.elim_some, batchRead_eq_ok]
  exact ⟨rfl, [], hread, ofEntries_eq_ok.1 rfl⟩

end Client
end DocClient
