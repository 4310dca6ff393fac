/-
# What a status comes to

No status is swallowed (`SingleCall.statuses_heeded`): a call goes through only for a success whose text has the shape
that its family expects, and for a read that found nothing; for any other status it fails as the status says, or as an
unsupported one if the family does not document it, with the status and the whole text; and a success whose text has
another shape is a failure to read it.

That is so for each way to take replies (`Heeds`), and stays so whatever is gone on with (`Call.HeedsStatus.andThen`),
so it is so for every plan (`Plan.HeedsStatus`).
-/

import DocClient.Proofs.Store.Checks
import DocClient.Proofs.Store.Replies

namespace DocClient

namespace Call

variable {α β : Type} {f : RequestFamily} {legible : String → Prop} {comes : String → Outcome α → Prop}
  {absent : String → α → Prop} {call : Call α}

/-- **A call heeds the status of its reply,** if it sends a request. -/
inductive HeedsStatus (f : RequestFamily) (legible : String → Prop) (comes : String → Outcome α → Prop)
    (absent : String → α → Prop) : Call α → Prop where
  | done (result : Outcome α) : HeedsStatus f legible comes absent (.done result)
  | sent {request : Request} {receive : Reply → Outcome α} (asks : request.method = f.method)
    (heeds : Heeds f legible comes absent receive) : HeedsStatus f legible comes absent (.send request receive)

theorem Takes.heeds {receive : Reply → Outcome α} (h : call.Takes f.method receive)
    (hreceive : Heeds f legible comes absent receive) : call.HeedsStatus f legible comes absent := by
  cases h with
  | done result => exact .done result
  | sent request asks => exact .sent asks hreceive

/-- What comes of the text of a success may be told in another way. -/
theorem HeedsStatus.imp {comes' : String → Outcome α → Prop} (h : call.HeedsStatus f legible comes absent)
    (hcomes : ∀ text result, comes text result → comes' text result) : call.HeedsStatus f legible comes' absent := by
  cases h with
  | done result => exact .done result
  | sent asks heeds =>
    exact .sent asks { heeds with given := fun reply hstatus htext => hcomes _ _ (heeds.given reply hstatus htext) }

theorem HeedsStatus.andThen {comes' : String → Outcome β → Prop} {absent' : String → β → Prop}
    (h : call.HeedsStatus f legible comes absent) {g : α → Outcome β}
    (hcomes : ∀ text result, comes text result → comes' text (result.bind g)) (hg : ∀ a e, g a = .error e → f.MayFail e)
    (habsent : f = .read → ∀ text a, absent text a → ∃ b, g a = .ok b ∧ absent' text b) :
    (call.andThen g).HeedsStatus f legible comes' absent' := by
  cases h with
  | done result => exact .done _
  | sent asks heeds => exact .sent asks (heeds.andThen hcomes hg habsent)

end Call

/-- Every call that a plan comes to heeds the status of its reply. -/
def Plan.HeedsStatus {α : Type} (f : RequestFamily) (legible : String → Prop) (comes : String → Outcome α → Prop)
    (absent : String → α → Prop) (p : Plan α) : Prop := ∀ routes, (p routes).1.HeedsStatus f legible comes absent

namespace Plan

variable {α : Type} {f : RequestFamily} {legible : String → Prop} {comes : String → Outcome α → Prop}
  {absent : String → α → Prop}

theorem heedsStatus_of_makes {p : Prepared (Call α)} (h : p.Makes (Call.HeedsStatus f legible comes absent)) :
    HeedsStatus f legible comes absent (Plan.of p) :=
  Plan.of_makes (fun _ => .done _) h

/-- A plan that is guarded by checks heeds what it heeds without them. -/
theorem heedsStatus_guarded {checks : Outcome Unit} {p : Plan α} (h : HeedsStatus f legible comes absent p) :
    HeedsStatus f legible comes absent (Client.guarded checks p) := by
  intro routes
  cases checks with
  | ok u => exact h routes
  | error e => exact .done _

/-- A plan that goes by the route of a type heeds what it heeds with that route. -/
theorem heedsStatus_require {typeName : String} {p : Plan α} {go : Route → Plan α} {routes : Routes}
    (hp : p routes = match (Routes.require typeName).run.run routes with
      | (.ok route, after) => go route after
      | (.error e, after) => (.done (.error e), after))
    (hgo : ∀ route after, routes.resolve typeName = .ok (route, after) →
      (go route after).1.HeedsStatus f legible comes absent) :
    (p routes).1.HeedsStatus f legible comes absent := by
  rw [hp]
  cases hroute : routes.resolve typeName with
  | ok found =>
    rw [Routes.run_require hroute]
    exact hgo found.1 found.2 hroute
  | error e =>
    rw [Routes.run_require_error hroute]
    exact .done _

end Plan

/-! ### Every call -/

namespace Client

variable {α β ε : Type} (c : Client) (T : EntityType α)

open Prepared

/-- What is found by a read of a document that may be missing. -/
def NothingFound {α : Type} (text : String) (found : SystemFields × Option α) : Prop :=
  SaysAbsent text found.1 ∧ found.2 = none

theorem heeds_readDocument {decode : Object → Outcome α}
    (hdecode : ∀ o e, decode o = .error e → ∃ error, e = .serialization error) (path : List String)
    (options : ReadOptions) :
    ((c.readDocument path options).andThen (decodeFound decode)).HeedsStatus .read (ReadsDocument decode)
      (YieldsDocument decode fun system e => (system, some e)) NothingFound :=
  Call.Takes.heeds (f := .read) ((takes_call .get path _ none readReply).andThen (decodeFound decode))
    (heeds_read hdecode)

/-- A read that gives the entity alone heeds the status as one that gives what the server looks after besides. -/
theorem heeds_alone {decode : Object → Outcome α} {call : Call (SystemFields × Option α)}
    (h : call.HeedsStatus .read (ReadsDocument decode) (YieldsDocument decode fun system e => (system, some e))
      NothingFound) :
    (call.andThen fun found => .ok found.2).HeedsStatus .read (ReadsDocument decode)
      (YieldsDocument decode fun _ e => some e) fun _ found => found = none := by
  refine h.andThen (fun text result hyields => ?_) (fun _ _ he => nomatch he) fun _ _ found habsent =>
    ⟨found.2, rfl, habsent.2⟩
  obtain ⟨document, system, e, hdocument, hsystem, hentity, rfl⟩ := hyields
  exact ⟨document, system, e, hdocument, hsystem, hentity, rfl⟩

theorem heeds_putDocument (path : List String) (body : Object) (options : WriteOptions) (e : α)
    {absent : String → Written α → Prop} :
    (c.putDocument T path body options e).HeedsStatus .write (Reads WriteReply.reader)
      (Yields WriteReply.reader (Written.Acknowledged T e)) absent :=
  Call.Takes.heeds (f := .write) (takes_call .put path _ _ _) (heeds_write T e)

theorem heeds_deleteDocument (path : List String) (revision : Revision) (batch : Bool)
    {absent : String → WriteReply → Prop} :
    (c.deleteDocument path revision batch).HeedsStatus .deletion (Reads WriteReply.reader)
      (Yields WriteReply.reader Plainly) absent :=
  Call.Takes.heeds (f := .deletion) (takes_call .delete path _ _ _) heeds_delete

theorem heeds_getWithSystem (id : DocId) (options : ReadOptions) :
    Plan.HeedsStatus .read (ReadsDocument (Envelope.decode T.reader c.settings.classField))
      (YieldsDocument (Envelope.decode T.reader c.settings.classField) fun system e => (system, some e)) NothingFound
      (c.getWithSystem T id options) :=
  Plan.heedsStatus_of_makes <| makes_bind fun _ => makes_bind fun route => makes_pure <|
    c.heeds_readDocument (fun _ _ => Outcome.exists_fault_of_ofRead) [route.database.text, id.text] options

theorem heeds_get (id : DocId) (options : ReadOptions) :
    Plan.HeedsStatus .read (ReadsDocument (Envelope.decode T.reader c.settings.classField))
      (YieldsDocument (Envelope.decode T.reader c.settings.classField) fun _ e => some e) (fun _ found => found = none)
      (c.get T id options) :=
  fun routes => heeds_alone (c.heeds_getWithSystem T id options routes)

theorem heeds_upsertWith (e : α) (options : WriteOptions) {absent : String → Written α → Prop} :
    Plan.HeedsStatus .write (Reads WriteReply.reader) (Yields WriteReply.reader (Written.Acknowledged T e)) absent
      (c.upsertWith T e options) :=
  Plan.heedsStatus_of_makes <| makes_bind fun _ => makes_bind fun route => makes_bind fun body => makes_pure <|
    c.heeds_putDocument T [route.database.text, (T.id e).text] body options e

theorem heeds_deletion (db : DatabaseName) (id : DocId) (revision : Revision) (batch : Bool)
    {absent : String → WriteReply → Prop} :
    Plan.HeedsStatus .deletion (Reads WriteReply.reader) (Yields WriteReply.reader Plainly) absent
      (c.delete db id revision batch) := by
  refine Plan.heedsStatus_guarded fun routes => ?_
  dsimp only
  exact c.heeds_deleteDocument [db.text, id.text] revision batch

theorem heeds_deleteEntity (e : α) (batch : Bool) {absent : String → WriteReply → Prop} :
    Plan.HeedsStatus .deletion (Reads WriteReply.reader) (Yields WriteReply.reader Plainly) absent
      (c.deleteEntity T e batch) := by
  intro routes
  rw [deleteEntity]
  split
  · exact c.heeds_deletion _ _ _ _ _
  · exact .done _

theorem heeds_getDesignWithSystem (db : DatabaseName) (id : DocId) (options : ReadOptions) :
    Plan.HeedsStatus .read (ReadsDocument (Envelope.decodeDesign DesignDocument.reader))
      (YieldsDocument (Envelope.decodeDesign DesignDocument.reader) fun system d => (system, some d)) NothingFound
      (c.getDesignWithSystem db id options) :=
  Plan.heedsStatus_of_makes <| makes_bind fun name => makes_pure <|
    c.heeds_readDocument (fun _ _ => Outcome.exists_fault_of_ofRead) (designPath db name) options

theorem heeds_getDesign (db : DatabaseName) (id : DocId) :
    Plan.HeedsStatus .read (ReadsDocument (Envelope.decodeDesign DesignDocument.reader))
      (YieldsDocument (Envelope.decodeDesign DesignDocument.reader) fun _ d => some d) (fun _ found => found = none)
      (c.getDesign db id) :=
  fun routes => heeds_alone (c.heeds_getDesignWithSystem db id {} routes)

theorem heeds_upsertDesign (db : DatabaseName) (d : DesignDocument) {absent : String → Written DesignDocument → Prop} :
    Plan.HeedsStatus .write (Reads WriteReply.reader)
      (Yields WriteReply.reader (Written.Acknowledged DesignDocument.type d)) absent (c.upsertDesign db d) :=
  Plan.heedsStatus_of_makes <| makes_bind fun name => makes_bind fun body => makes_pure <|
    c.heeds_putDocument DesignDocument.type (designPath db name) body {} d

theorem heeds_deleteDesign (db : DatabaseName) (id : DocId) (revision : Revision) (batch : Bool)
    {absent : String → WriteReply → Prop} :
    Plan.HeedsStatus .deletion (Reads WriteReply.reader) (Yields WriteReply.reader Plainly) absent
      (c.deleteDesign db id revision batch) :=
  Plan.heedsStatus_of_makes <| makes_bind fun name => makes_bind fun _ => makes_pure <|
    c.heeds_deleteDocument (designPath db name) revision batch

theorem heeds_rawView (db : DatabaseName) (design : DocId) (view : String) (request : ViewRequest)
    {absent : String → RawRows → Prop} :
    Plan.HeedsStatus .view (Reads RawRows.reader) (Yields RawRows.reader Plainly) absent
      (c.rawView db design view request) :=
  Plan.heedsStatus_of_makes <| makes_bind fun _ => makes_bind fun _ => makes_pure <|
    Call.Takes.heeds (f := .view) (takes_call .post _ _ _ viewReply) heeds_view

theorem heeds_decodedView (values : Reader β) (db : DatabaseName) (design : DocId) (view : String)
    (request : ViewRequest) {absent : String → ViewRows β → Prop} :
    Plan.HeedsStatus .view (Reads RawRows.reader)
      (Yields RawRows.reader (ViewRows.Resolved values c.settings.classField request.includeDocs)) absent
      (c.view values db design view request) := by
  intro routes
  have hraw : (c.rawView db design view request routes).1.HeedsStatus .view (Reads RawRows.reader)
      (Yields RawRows.reader Plainly) fun _ _ => False := c.heeds_rawView db design view request routes
  refine hraw.andThen (fun text result hyields => ?_) (fun _ _ => mayFail_of_decodeRows) fun hread => nomatch hread
  obtain ⟨raw, htext, rfl⟩ := hyields
  exact ⟨raw, htext, c.resolved_decodeRows values request.includeDocs raw⟩

theorem heeds_writeBatchIn (db : DatabaseName) (upserts : List α) (deletions : List Deletion)
    {absent : String → BatchWritten α → Prop} :
    Plan.HeedsStatus .batchWrite (Reads (Reader.list BulkOutcome.reader))
      (Yields (Reader.list BulkOutcome.reader) (Lined T upserts deletions)) absent
      (c.writeBatchIn T db upserts deletions) := by
  refine Plan.heedsStatus_of_makes <| makes_bind fun _ => makes_bind fun _ => ?_
  split
  · exact makes_pure (.done _)
  · exact makes_bind fun route => makes_bind fun docs => makes_pure <|
      Call.Takes.heeds (f := .batchWrite) (takes_call .post _ _ _ _) (heeds_batchWrite T upserts deletions)

theorem heeds_readBatchIn (db : DatabaseName) (ids : List DocId) (steps : List (Dispatch.Step ε))
    {absent : String → BatchRead ε → Prop} :
    Plan.HeedsStatus .batchRead (Reads BatchItem.listReader)
      (Yields BatchItem.listReader (c.Sorts (Dispatch.build steps))) absent
      (c.readBatchIn db ids (Dispatch.build steps)) := by
  refine Plan.heedsStatus_guarded fun routes => ?_
  dsimp only
  split
  · exact .done _
  · exact Call.Takes.heeds (f := .batchRead) (takes_call .post _ _ _ _) (heeds_batchRead c steps)

theorem heeds_writeBatch (upserts : List α) (deletions : List Deletion) {absent : String → BatchWritten α → Prop} :
    Plan.HeedsStatus .batchWrite (Reads (Reader.list BulkOutcome.reader))
      (Yields (Reader.list BulkOutcome.reader) (Lined T upserts deletions)) absent
      (c.writeBatch T upserts deletions) :=
  fun routes => Plan.heedsStatus_require (c.writeBatch_eq T upserts deletions routes) fun route after _ =>
    c.heeds_writeBatchIn T route.database upserts deletions after

/-- What comes of the text of a batch of reads of one type: its entries are sorted by the class of the type. -/
def YieldsBatch (routes : Routes) (text : String) (result : Outcome (BatchRead α)) : Prop :=
  ∃ route after, routes.resolve T.name = .ok (route, after)
    ∧ Yields BatchItem.listReader (c.Sorts (Dispatch.single T route)) text result

theorem heeds_readBatch (ids : List DocId) (routes : Routes) {absent : String → BatchRead α → Prop} :
    (c.readBatch T ids routes).1.HeedsStatus .batchRead (Reads BatchItem.listReader) (c.YieldsBatch T routes) absent :=
  Plan.heedsStatus_require (c.readBatch_eq T ids routes) fun route after hroute =>
    (c.heeds_readBatchIn route.database ids [.insert ⟨route.className, T, fun e => e⟩] after).imp
      fun _ _ hyields => ⟨route, after, hroute, hyields⟩

end Client

namespace DocumentCall

variable {α : Type}

/-- The family of the request of a call. -/
def family : DocumentCall α → RequestFamily
  | .get .. | .getWithSystem .. => .read
  | .insert _ | .update _ | .upsert _ | .upsertWith .. => .write
  | .delete .. | .deleteEntity .. => .deletion

/-- The texts that have the shape that a call expects. -/
def Legible (c : Client) (T : EntityType α) : DocumentCall α → String → Prop
  | .get .. | .getWithSystem .. => ReadsDocument (Envelope.decode T.reader c.settings.classField)
  | .insert _ | .update _ | .upsert _ | .upsertWith .. | .delete .. | .deleteEntity .. => Reads WriteReply.reader

/-- What the text of a success comes to. -/
def Comes (c : Client) (T : EntityType α) : (call : DocumentCall α) → String → Outcome call.Result → Prop
  | .get .. => YieldsDocument (Envelope.decode T.reader c.settings.classField) fun _ e => some e
  | .getWithSystem .. =>
    YieldsDocument (Envelope.decode T.reader c.settings.classField) fun system e => (system, some e)
  | .insert e | .update e | .upsert e | .upsertWith e _ => Yields WriteReply.reader (Written.Acknowledged T e)
  | .delete .. | .deleteEntity .. => Yields WriteReply.reader Plainly

/-- What a read gives where there is no document, given the text of the reply. -/
def Absent : (call : DocumentCall α) → String → call.Result → Prop
  | .get .. => fun _ found => found = none
  | .getWithSystem .. => Client.NothingFound
  | .insert _ | .update _ | .upsert _ | .upsertWith .. | .delete .. | .deleteEntity .. => fun _ _ => False

theorem heeds_plan (c : Client) (T : EntityType α) (call : DocumentCall α) :
    Plan.HeedsStatus call.family (call.Legible c T) (call.Comes c T) call.Absent (call.plan c T) := by
  cases call with
  | get id options => exact c.heeds_get T id options
  | getWithSystem id options => exact c.heeds_getWithSystem T id options
  | insert e => exact Plan.heedsStatus_guarded (c.heeds_upsertWith T e {})
  | update e => exact Plan.heedsStatus_guarded (c.heeds_upsertWith T e {})
  | upsert e => exact c.heeds_upsertWith T e {}
  | upsertWith e options => exact c.heeds_upsertWith T e options
  | delete db id revision batch => exact c.heeds_deletion db id revision batch
  | deleteEntity e batch => exact c.heeds_deleteEntity T e batch

end DocumentCall

namespace SingleCall

variable {α β ε : Type}

/-- The family of the request of a call. -/
def family : SingleCall α β ε → RequestFamily
  | .document call => call.family
  | .getDesign .. | .getDesignWithSystem .. => .read
  | .upsertDesign .. => .write
  | .deleteDesign .. => .deletion
  | .rawView .. | .view .. => .view
  | .writeBatch .. | .writeBatchIn .. => .batchWrite
  | .readBatch .. | .readBatchIn .. => .batchRead

/-- The texts that have the shape that a call expects. -/
def Legible (c : Client) (T : EntityType α) : SingleCall α β ε → String → Prop
  | .document call => call.Legible c T
  | .getDesign .. | .getDesignWithSystem .. => ReadsDocument (Envelope.decodeDesign DesignDocument.reader)
  | .upsertDesign .. | .deleteDesign .. => Reads WriteReply.reader
  | .rawView .. | .view .. => Reads RawRows.reader
  | .writeBatch .. | .writeBatchIn .. => Reads (Reader.list BulkOutcome.reader)
  | .readBatch .. | .readBatchIn .. => Reads BatchItem.listReader

/-- What the text of a success comes to. -/
def Comes (c : Client) (T : EntityType α) (routes : Routes) :
    (call : SingleCall α β ε) → String → Outcome call.Result → Prop
  | .document call => call.Comes c T
  | .getDesign .. => YieldsDocument (Envelope.decodeDesign DesignDocument.reader) fun _ d => some d
  | .getDesignWithSystem .. =>
    YieldsDocument (Envelope.decodeDesign DesignDocument.reader) fun system d => (system, some d)
  | .upsertDesign _ d => Yields WriteReply.reader (Written.Acknowledged DesignDocument.type d)
  | .deleteDesign .. => Yields WriteReply.reader Plainly
  | .rawView .. => Yields RawRows.reader Plainly
  | .view values _ _ _ request =>
    Yields RawRows.reader (ViewRows.Resolved values c.settings.classField request.includeDocs)
  | .writeBatch upserts deletions | .writeBatchIn _ upserts deletions =>
    Yields (Reader.list BulkOutcome.reader) (Client.Lined T upserts deletions)
  | .readBatch _ => c.YieldsBatch T routes
  | .readBatchIn _ _ steps => Yields BatchItem.listReader (c.Sorts (Dispatch.build steps))

/-- What a read gives where there is no document, given the text of the reply. -/
def Absent : (call : SingleCall α β ε) → String → call.Result → Prop
  | .document call => call.Absent
  | .getDesign .. => fun _ found => found = none
  | .getDesignWithSystem .. => Client.NothingFound
  | .upsertDesign .. | .deleteDesign .. | .rawView .. | .view .. | .writeBatch .. | .writeBatchIn .. | .readBatch ..
  | .readBatchIn .. => fun _ _ => False

theorem heeds_plan (c : Client) (T : EntityType α) (routes : Routes) (call : SingleCall α β ε) :
    (call.plan c T routes).1.HeedsStatus call.family (call.Legible c T) (call.Comes c T routes) call.Absent := by
  cases call with
  | document call => exact call.heeds_plan c T routes
  | getDesign db id => exact c.heeds_getDesign db id routes
  | getDesignWithSystem db id options => exact c.heeds_getDesignWithSystem db id options routes
  | upsertDesign db d => exact c.heeds_upsertDesign db d routes
  | deleteDesign db id revision batch => exact c.heeds_deleteDesign db id revision batch routes
  | rawView db design name request => exact c.heeds_rawView db design name request routes
  | view values db design name request => exact c.heeds_decodedView values db design name request routes
  | writeBatch upserts deletions => exact c.heeds_writeBatch T upserts deletions routes
  | writeBatchIn db upserts deletions => exact c.heeds_writeBatchIn T db upserts deletions routes
  | readBatch ids => exact c.heeds_readBatch T ids routes
  | readBatchIn db ids steps => exact c.heeds_readBatchIn db ids steps routes

/-- **No status is swallowed.** What comes of any call that sends its request, whatever the arguments and the routes are,
is what the status of the reply and its text say: success only for a success whose text has the shape that the call
expects and for a read that found nothing, and else the failure that tells the status and keeps the whole text. What a
success gives is what its text says, all of it. -/
theorem statuses_heeded (c : Client) (T : EntityType α) (routes : Routes) (call : SingleCall α β ε) {r : Request}
    (hsent : (call.plan c T routes).1.request? = some r) {answer : Answer} {reply : Reply}
    (hreply : answer.reply? = some reply) :
    Heeded call.family (call.Legible c T) (call.Comes c T routes) call.Absent r reply
      ((call.plan c T routes).1.result answer) := by
  have h := call.heeds_plan c T routes
  revert h hsent
  generalize (call.plan c T routes).1 = made
  intro hsent h
  cases h with
  | done result => exact nomatch hsent
  | sent asks heeds =>
    obtain rfl := Option.some.inj hsent
    rw [Call.result, hreply]
    exact heeds.heeded asks reply

/-- The deletion of a document at a revision. -/
def sampleDeletion : SingleCall StockEntity StockEntity StockEntity :=
  .document (.delete ⟨"db"⟩ ⟨"a"⟩ ⟨"1-x"⟩ false)

/-- A reply that names no error. -/
def sampleRefusal : Reply := ⟨409, "no"⟩

/-- A deletion that is refused for its revision is a conflict, though the reply does not say so in words. -/
theorem statuses_heeded_sample :
    Heeded .deletion (Reads WriteReply.reader) (Yields WriteReply.reader Plainly) (fun _ _ => False)
        ⟨.delete, "localhost:5984", "/db/a?rev=1-x", none, none⟩ sampleRefusal
        ((sampleDeletion.plan .sample EntityKind.test.type .sample).1.result sampleRefusal.answer)
      ∧ ∃ e, (sampleDeletion.plan .sample EntityKind.test.type .sample).1.result sampleRefusal.answer = .error e
        ∧ e.isConflict = true := by
  have hsent : (sampleDeletion.plan .sample EntityKind.test.type .sample).1.request?
      = some ⟨.delete, "localhost:5984", "/db/a?rev=1-x", none, none⟩ := by decide +kernel
  have h := statuses_heeded .sample EntityKind.test.type .sample sampleDeletion hsent sampleRefusal.reply?_answer
  exact ⟨h, h.conflict.2 ⟨rfl, .inr rfl⟩⟩

end SingleCall

end DocClient
