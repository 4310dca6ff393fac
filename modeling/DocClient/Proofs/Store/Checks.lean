/-
# Checks come before the network

A call that is done in one exchange at most looks at its arguments, at the route of the entity type and at what the
entity is encoded to, and only then sends its request. So a failure that is found by looking is returned before anything
is sent, and what is made of a reply is never such a failure (`SingleCall.checks_first`):

| failure | sent before | answers taken |
| --- | ---: | ---: |
| the caller misused the call | 0 | 0 |
| the entity type has no route, or no good one | 0 | 0 |
| the entity has no stored form | 0 | 0 |
| any other | at most 1 | at most 1 |

A call is refused as misused exactly for arguments that can be told from the table of `SingleCall.Misused`. The calls
that find the database by the type come to its route first, so they are refused as misused only where it has one.
-/

import DocClient.Proofs.Dispatch
import DocClient.Proofs.Store.DocumentCall
import DocClient.Proofs.Store.Found
import DocClient.Proofs.Store.Upfront

namespace DocClient

open Outcome

/-! ### What is made of a reply -/

namespace Envelope

variable {α : Type}

theorem late_decode (r : Reader α) (classField : String) (wire : Object) : Late (decode r classField wire) :=
  late_ofRead _

theorem late_decodeDesign (r : Reader α) (wire : Object) : Late (decodeDesign r wire) := late_ofRead _

theorem late_decodeValue (r : Reader α) (classField : String) (value : Json) :
    Late (decodeValue r classField value) := by
  cases value <;> exact late_ofRead _

/-- An entity without a stored form is no misuse. -/
theorem not_misuse_of_encode {style : Style} {className : ClassName} {entity : Json} {e : ClientError}
    (h : encode style className entity = .error e) : e.isInvariantViolation = false := by
  cases entity with
  | obj o =>
    simp only [encode, members, ok_bind] at h
    split at h
    · obtain rfl := Except.error.inj h
      rfl
    · cases h
  | _ =>
    obtain rfl := Except.error.inj h
    rfl

/-- A design document without a stored form is no misuse. -/
theorem not_misuse_of_encodeDesign {design : Json} {e : ClientError} (h : encodeDesign design = .error e) :
    e.isInvariantViolation = false := by
  cases design with
  | obj o =>
    simp only [encodeDesign, members, ok_bind] at h
    split at h
    · cases h
    · obtain rfl := Except.error.inj h
      rfl
  | _ =>
    obtain rfl := Except.error.inj h
    rfl

end Envelope

theorem Dispatch.late_decode {ε : Type} (steps : List (Dispatch.Step ε)) (document : Object) (classField : String) :
    Late ((Dispatch.build steps).decode document classField) := by
  intro e he
  rcases (Dispatch.agrees_build steps).fault he with ⟨-, rfl⟩ | ⟨className, -, rfl | ⟨error, rfl⟩⟩ <;> rfl

section Replies

variable {α β ε : Type}

theorem late_readReply (reply : Reply) : Late (readReply reply) := by
  rw [readReply]
  split
  · exact (late_ofRead _).bind fun document => (late_ofRead _).bind fun system => late_ok _
  · exact late_ok _
  · exact late_error rfl

theorem late_decodeFound {decode : Object → Outcome α} (h : ∀ o, Late (decode o))
    (found : SystemFields × Option Object) : Late (decodeFound decode found) := by
  obtain ⟨system, _ | fields⟩ := found
  · exact late_ok _
  · exact (h fields).map _

theorem late_writeReply (successes : List Nat) (reply : Reply) : Late (writeReply successes reply) := by
  rw [writeReply]
  split
  · exact late_ofRead _
  · exact late_error rfl

theorem Written.late_ofReply (T : EntityType α) (e : α) (reply : WriteReply) : Late (ofReply T e reply) := by
  rw [ofReply]
  split
  · split
    · exact late_ok _
    · exact late_error rfl
  · exact late_ok _

theorem Client.late_batchWritten (T : EntityType α) (upserts : List α) (deletions : List Deletion) (reply : Reply) :
    Late (batchWritten T upserts deletions reply) := by
  rw [batchWritten]
  split
  · refine (late_ofRead _).bind fun outcomes => ?_
    split
    · exact late_error rfl
    · exact late_ok _
  · exact late_error rfl

theorem Client.late_batchRead (c : Client) {D : Dispatch ε}
    (h : ∀ document, Late (D.decode document c.settings.classField)) (reply : Reply) : Late (c.batchRead D reply) := by
  rw [batchRead]
  split
  · refine (late_ofRead _).bind fun items => ?_
    have heq : BatchRead.ofItems D c.settings.classField items
        = BatchRead.ofEntries D c.settings.classField (BatchRead.entries items) := rfl
    rw [heq, BatchRead.ofEntries_eq]
    exact (late_mapM h _).map _
  · exact late_error rfl

theorem Client.late_viewReply (reply : Reply) : Late (viewReply reply) := by
  rw [viewReply]
  split
  · exact late_ofRead _
  · exact late_error rfl

theorem RawRow.late_decode (r : Reader β) (classField : String) (includeDocs : Bool) (row : RawRow) :
    Late (row.decode r classField includeDocs) := by
  rw [decode]
  split
  · split
    · exact (Envelope.late_decode _ _ _).map _
    · exact late_error rfl
  · split
    · exact late_ok _
    · exact (Envelope.late_decodeValue _ _ _).map _

theorem Client.late_decodeRows (c : Client) (r : Reader β) (includeDocs : Bool) (raw : RawRows) :
    Late (c.decodeRows r includeDocs raw) :=
  (late_mapM (RawRow.late_decode r c.settings.classField includeDocs) raw.rows).bind fun _ => late_ok _

end Replies

/-! ### What each call refuses -/

theorem refuses_requireId (id : DocId) : Refuses (id.isBlank = true) (requireId id) := refuses_forbid _ _

theorem Client.refuses_checkDeletion (d : Deletion) :
    Refuses (d.id.isBlank = true ∨ d.revision.isBlank = true) (checkDeletion d) :=
  (refuses_requireId d.id).bind fun _ => refuses_forbid _ _

/-- A design document is not named: the name is blank, or nothing of it is left without the prefix. -/
def DesignNameless (id : DocId) : Prop :=
  id.isBlank = true ∨ Text.isBlank ((Envelope.dropPrefix? Envelope.designPrefix id.text).getD id.text) = true

theorem refuses_designName (id : DocId) : Refuses (DesignNameless id) (designName id) := by
  have h : Refuses (DesignNameless id ∨ False) (designName id) := by
    rw [DesignNameless, or_assoc]
    exact (refuses_requireId id).bind fun _ => (refuses_forbid _ _).bind fun _ => refuses_ok _
  simpa only [or_false] using h

namespace Client

variable {α β ε : Type} (c : Client) (T : EntityType α)

theorem checked_readDocument {decode : Object → Outcome α} (h : ∀ o, Late (decode o)) (path : List String)
    (options : ReadOptions) : ((c.readDocument path options).andThen (decodeFound decode)).Checked False :=
  (c.checked_call _ _ _ _ late_readReply).andThen (late_decodeFound h)

theorem checked_putDocument (path : List String) (body : Object) (options : WriteOptions) (e : α) :
    (c.putDocument T path body options e).Checked False :=
  c.checked_call _ _ _ _ fun reply => (late_writeReply _ reply).bind fun _ => Written.late_ofReply T e _

theorem checked_deleteDocument (path : List String) (revision : Revision) (batch : Bool) :
    (c.deleteDocument path revision batch).Checked False :=
  c.checked_call _ _ _ _ (late_writeReply _)

theorem checked_getWithSystem (id : DocId) (options : ReadOptions) :
    Plan.Checked (id.isBlank = true) (c.getWithSystem T id options) :=
  Plan.checked_refuses_only (refuses_requireId id) fun _ => Routes.checked_require_bind fun route =>
    Plan.checked_pure <| c.checked_readDocument (Envelope.late_decode T.reader c.settings.classField)
      [route.database.text, id.text] options

theorem checked_get (id : DocId) (options : ReadOptions) : Plan.Checked (id.isBlank = true) (c.get T id options) :=
  fun routes => (c.checked_getWithSystem T id options routes).andThen fun _ => late_ok _

theorem checked_upsertWith (e : α) (options : WriteOptions) :
    Plan.Checked ((T.id e).isBlank = true) (c.upsertWith T e options) :=
  Plan.checked_refuses_only (refuses_requireId (T.id e)) fun _ => Routes.checked_require_bind fun route =>
    Plan.checked_of (fun _ => Envelope.not_misuse_of_encode) fun body =>
      Plan.checked_pure <| c.checked_putDocument T [route.database.text, (T.id e).text] body options e

theorem checked_insert (e : α) :
    Plan.Checked ((T.id e).isBlank = true ∨ (T.revision e).isSome = true) (c.insert T e) := by
  have h : Plan.Checked _ (c.insert T e) := Plan.checked_guarded
    ((refuses_requireId (T.id e)).bind fun _ => refuses_forbid _ _) (c.checked_upsertWith T e {})
  exact h.congr (by tauto)

theorem checked_update (e : α) :
    Plan.Checked ((T.id e).isBlank = true ∨ (T.revision e).all Revision.isBlank = true) (c.update T e) := by
  have h : Plan.Checked _ (c.update T e) := Plan.checked_guarded
    ((refuses_requireId (T.id e)).bind fun _ => refuses_forbid _ _) (c.checked_upsertWith T e {})
  exact h.congr (by tauto)

theorem checked_delete (db : DatabaseName) (id : DocId) (revision : Revision) (batch : Bool) :
    Plan.Checked (id.isBlank = true ∨ revision.isBlank = true) (c.delete db id revision batch) := by
  have h : Plan.Checked _ (c.delete db id revision batch) := Plan.checked_guarded
    ((refuses_requireId id).bind fun _ => refuses_forbid _ _)
    (Plan.checked_const (c.checked_deleteDocument [db.text, id.text] revision batch))
  exact h.congr (or_false _).symm.to_iff

theorem deleteEntity_eq {e : α} (hid : (T.id e).isBlank = false) {revision : Revision}
    (hrevision : T.revision e = some revision) (batch : Bool) (routes : Routes) :
    c.deleteEntity T e batch routes = match (Routes.require T.name).run.run routes with
      | (.ok route, after) => c.delete route.database (T.id e) revision batch after
      | (.error e, after) => (.done (.error e), after) := by
  simp only [deleteEntity, Prepared.run_bind, Prepared.run_of, requireId_eq hid, Deletion.of, hrevision]
  rcases (Routes.require T.name).run.run routes with ⟨_ | _, _⟩ <;> rfl

/-- The deletion of an entity is refused for its name, or for lack of a revision; for a revision that is blank only
where its type has a route. -/
theorem checked_deleteEntity (e : α) (batch : Bool) (routes : Routes) :
    (c.deleteEntity T e batch routes).1.Checked ((T.id e).isBlank = true ∨ T.revision e = none
      ∨ (T.revision e).all Revision.isBlank = true ∧ routes.Resolves T.name) := by
  cases hblank : (T.id e).isBlank with
  | true =>
    have hrun : c.deleteEntity T e batch routes = (.done (.error (.misuse .blankId)), routes) := by
      simp only [deleteEntity, Prepared.run_bind, Prepared.run_of, DocumentCall.requireId_eq, hblank, if_true]
    rw [hrun]
    exact Call.checked_misuse (.inl rfl) _
  | false =>
    cases hrevision : T.revision e with
    | none =>
      have hrun : c.deleteEntity T e batch routes = (.done (.error (.misuse (.deleteOfUnsaved (T.id e)))), routes) := by
        simp only [deleteEntity, Prepared.run_bind, Prepared.run_of, requireId_eq hblank, Deletion.of, hrevision]
      rw [hrun]
      exact Call.checked_misuse (.inr (.inl rfl)) _
    | some revision =>
      have h := Routes.checked_require (c.deleteEntity_eq T hblank hrevision batch)
        (fun route => c.checked_delete route.database (T.id e) revision batch) routes
      simpa [hblank] using h

theorem checked_getDesignWithSystem (db : DatabaseName) (id : DocId) (options : ReadOptions) :
    Plan.Checked (DesignNameless id) (c.getDesignWithSystem db id options) :=
  Plan.checked_refuses_only (refuses_designName id) fun name => Plan.checked_pure <|
    c.checked_readDocument (Envelope.late_decodeDesign DesignDocument.reader) (designPath db name) options

theorem checked_getDesign (db : DatabaseName) (id : DocId) :
    Plan.Checked (DesignNameless id) (c.getDesign db id) :=
  fun routes => (c.checked_getDesignWithSystem db id {} routes).andThen fun _ => late_ok _

theorem checked_upsertDesign (db : DatabaseName) (d : DesignDocument) :
    Plan.Checked (DesignNameless d.id) (c.upsertDesign db d) :=
  Plan.checked_refuses_only (refuses_designName d.id) fun name =>
    Plan.checked_of (fun _ => Envelope.not_misuse_of_encodeDesign) fun body => Plan.checked_pure <|
      c.checked_putDocument DesignDocument.type (designPath db name) body {} d

theorem checked_deleteDesign (db : DatabaseName) (id : DocId) (revision : Revision) (batch : Bool) :
    Plan.Checked (DesignNameless id ∨ revision.isBlank = true) (c.deleteDesign db id revision batch) :=
  Plan.checked_refuses (refuses_designName id) fun name =>
    Plan.checked_refuses_only (refuses_forbid revision.isBlank (.deleteDesignWithoutRevision id)) fun _ =>
      Plan.checked_pure <| c.checked_deleteDocument (designPath db name) revision batch

theorem checked_rawView (db : DatabaseName) (design : DocId) (view : String) (request : ViewRequest) :
    Plan.Checked (DesignNameless design ∨ Text.isBlank view = true) (c.rawView db design view request) :=
  Plan.checked_refuses (refuses_designName design) fun _ =>
    Plan.checked_refuses_only (refuses_forbid (Text.isBlank view) .blankViewName) fun _ =>
      Plan.checked_pure <| c.checked_call _ _ _ _ late_viewReply

theorem checked_view (r : Reader β) (db : DatabaseName) (design : DocId) (view : String) (request : ViewRequest) :
    Plan.Checked (DesignNameless design ∨ Text.isBlank view = true) (c.view r db design view request) :=
  fun routes => (c.checked_rawView db design view request routes).andThen (c.late_decodeRows r request.includeDocs)

/-- Something that is to be written has no name, or something that is to be deleted has no name or no revision. -/
def WrongMember (upserts : List α) (deletions : List Deletion) : Prop :=
  (∃ e ∈ upserts, (T.id e).isBlank = true)
    ∨ ∃ d ∈ deletions, d.id.isBlank = true ∨ d.revision.isBlank = true

theorem checked_writeBatchIn (db : DatabaseName) (upserts : List α) (deletions : List Deletion) :
    Plan.Checked (WrongMember T upserts deletions) (c.writeBatchIn T db upserts deletions) := by
  refine Plan.checked_refuses (refuses_forM (fun e => refuses_requireId (T.id e)) upserts) fun _ =>
    Plan.checked_refuses_only (refuses_forM refuses_checkDeletion deletions) fun _ => ?_
  split
  · exact Plan.checked_pure (Call.checked_ok _)
  · refine Routes.checked_require_bind fun route => Plan.checked_of (fun e he => ?_) fun docs =>
      Plan.checked_pure <| c.checked_call _ _ _ _ (late_batchWritten T upserts deletions)
    obtain ⟨_, -, hencode⟩ := error_of_mapM he
    exact Envelope.not_misuse_of_encode hencode

/-- **What a batch of writes sends:** it is refused for a wrong member, done if it is empty, and fails where the type has
no route or an entity no stored form. -/
theorem request?_writeBatchIn {c : Client} {T : EntityType α} {db : DatabaseName} {upserts : List α}
    {deletions : List Deletion} {routes : Routes} {r : Request} :
    (c.writeBatchIn T db upserts deletions routes).1.request? = some r
      ↔ ¬WrongMember T upserts deletions ∧ (upserts ≠ [] ∨ deletions ≠ [])
        ∧ ∃ route after docs, routes.resolve T.name = .ok (route, after)
          ∧ (upserts.mapM fun e => Envelope.encode c.style route.className (T.toJson e)) = .ok docs
          ∧ c.request? .post [db.text, "_bulk_docs"] none
            (some (batchBody ((docs ++ deletions.map Deletion.toObject).map .obj))) = some r := by
  simp only [writeBatchIn, Plan.of, Prepared.run_bind, Prepared.run_of]
  rcases refuses_forM (fun e => refuses_requireId (T.id e)) upserts with ⟨hwrong, m, hm⟩ | ⟨hnamed, u, hu⟩
  · simp [hm, Call.request?, WrongMember, hwrong]
  rcases refuses_forM refuses_checkDeletion deletions with ⟨hwrong, m, hm⟩ | ⟨hsound, v, hv⟩
  · simp [hu, hm, Call.request?, WrongMember, hwrong]
  have hright : ¬WrongMember T upserts deletions := not_or.2 ⟨hnamed, hsound⟩
  simp only [hu, hv]
  by_cases hempty : (upserts.isEmpty && deletions.isEmpty) = true
  · have hnone : ¬(upserts ≠ [] ∨ deletions ≠ []) := by simpa [not_or] using hempty
    rw [if_pos hempty]
    simp [hnone, Call.request?]
  have hsome : upserts ≠ [] ∨ deletions ≠ [] := by
    simp only [Bool.and_eq_true, List.isEmpty_iff, not_and_or] at hempty
    exact hempty
  rw [if_neg hempty]
  simp only [hright, hsome, not_false_eq_true, true_and, Prepared.run_bind, Prepared.run_of]
  cases hresolve : routes.resolve T.name with
  | error e => simp [Routes.run_require_error hresolve, Call.request?]
  | ok found =>
    simp only [Routes.run_require hresolve]
    cases hdocs : upserts.mapM fun e => Envelope.encode c.style found.1.className (T.toJson e) with
    | error e =>
      simp only [Call.request?, Except.ok.injEq, reduceCtorEq, false_iff, not_exists, not_and]
      rintro route after docs rfl hdocs'
      rw [hdocs] at hdocs'
      cases hdocs'
    | ok docs =>
      simp only [Prepared.run_pure, request?_call]
      constructor
      · exact fun h => ⟨found.1, found.2, docs, rfl, hdocs, h⟩
      · rintro ⟨route, after, docs', hfound, hdocs', h⟩
        obtain rfl := Except.ok.inj hfound
        rw [hdocs] at hdocs'
        obtain rfl := Except.ok.inj hdocs'
        exact h

theorem writeBatch_eq (upserts : List α) (deletions : List Deletion) (routes : Routes) :
    c.writeBatch T upserts deletions routes = match (Routes.require T.name).run.run routes with
      | (.ok route, after) => c.writeBatchIn T route.database upserts deletions after
      | (.error e, after) => (.done (.error e), after) := by
  unfold writeBatch
  rcases (Routes.require T.name).run.run routes with ⟨_ | _, _⟩ <;> rfl

theorem checked_writeBatch (upserts : List α) (deletions : List Deletion) (routes : Routes) :
    (c.writeBatch T upserts deletions routes).1.Checked
      (WrongMember T upserts deletions ∧ routes.Resolves T.name) :=
  Routes.checked_require (c.writeBatch_eq T upserts deletions)
    (fun route => c.checked_writeBatchIn T route.database upserts deletions) routes

theorem checked_readBatchIn (db : DatabaseName) (ids : List DocId) {D : Dispatch ε}
    (hD : ∀ document, Late (D.decode document c.settings.classField)) :
    Plan.Checked (∃ id ∈ ids, id.isBlank = true) (c.readBatchIn db ids D) := by
  have hcall : Call.Checked False (if ids.isEmpty then .done (.ok {})
      else c.call .post [db.text, "_bulk_get"] none (some (batchIds ids)) (c.batchRead D)) := by
    split
    · exact Call.checked_ok _
    · exact c.checked_call _ _ _ _ (c.late_batchRead hD)
  have h : Plan.Checked _ (c.readBatchIn db ids D) :=
    Plan.checked_guarded (refuses_forM refuses_requireId ids) (Plan.checked_const hcall)
  exact h.congr (or_false _).symm.to_iff

theorem readBatch_eq (ids : List DocId) (routes : Routes) :
    c.readBatch T ids routes = match (Routes.require T.name).run.run routes with
      | (.ok route, after) => c.readBatchIn route.database ids (Dispatch.single T route) after
      | (.error e, after) => (.done (.error e), after) := by
  unfold readBatch
  rcases (Routes.require T.name).run.run routes with ⟨_ | _, _⟩ <;> rfl

/-- What reads of the documents of one type make of them is no upfront failure. -/
theorem checked_readBatchIn_single (ids : List DocId) (route : Route) :
    Plan.Checked (∃ id ∈ ids, id.isBlank = true) (c.readBatchIn route.database ids (Dispatch.single T route)) :=
  c.checked_readBatchIn route.database ids
    (Dispatch.late_decode [.insert ⟨route.className, T, fun e => e⟩] · c.settings.classField)

theorem checked_readBatch (ids : List DocId) (routes : Routes) :
    (c.readBatch T ids routes).1.Checked ((∃ id ∈ ids, id.isBlank = true) ∧ routes.Resolves T.name) :=
  Routes.checked_require (c.readBatch_eq T ids) (c.checked_readBatchIn_single T ids) routes

/-- A batch of no writes is done. -/
theorem writeBatchIn_nil (db : DatabaseName) (routes : Routes) :
    c.writeBatchIn T db [] [] routes = (.done (.ok ⟨[], [], []⟩), routes) := rfl

/-- A batch of no reads is done. -/
theorem readBatchIn_nil (db : DatabaseName) (D : Dispatch ε) (routes : Routes) :
    c.readBatchIn db [] D routes = (.done (.ok {}), routes) := rfl

end Client

/-! ### All calls -/

namespace DocumentCall

variable {α : Type}

/-- What a call for one document gives. -/
def Result : DocumentCall α → Type
  | .get .. => Option α
  | .getWithSystem .. => SystemFields × Option α
  | .insert _ | .update _ | .upsert _ | .upsertWith .. => Written α
  | .delete .. | .deleteEntity .. => WriteReply

/-- The plan of a call for one document. -/
def plan (c : Client) (T : EntityType α) : (call : DocumentCall α) → Plan call.Result
  | .get id options => c.get T id options
  | .getWithSystem id options => c.getWithSystem T id options
  | .insert e => c.insert T e
  | .update e => c.update T e
  | .upsert e => c.upsert T e
  | .upsertWith e options => c.upsertWith T e options
  | .delete db id revision batch => c.delete db id revision batch
  | .deleteEntity e batch => c.deleteEntity T e batch

/-- The arguments of a call for one document are not as they should be. -/
def Misused (T : EntityType α) (routes : Routes) : DocumentCall α → Prop
  | .get id _ | .getWithSystem id _ => id.isBlank = true
  | .insert e => (T.id e).isBlank = true ∨ (T.revision e).isSome = true
  | .update e => (T.id e).isBlank = true ∨ (T.revision e).all Revision.isBlank = true
  | .upsert e | .upsertWith e _ => (T.id e).isBlank = true
  | .delete _ id revision _ => id.isBlank = true ∨ revision.isBlank = true
  | .deleteEntity e _ => (T.id e).isBlank = true ∨ T.revision e = none
      ∨ (T.revision e).all Revision.isBlank = true ∧ routes.Resolves T.name

theorem checked_plan (c : Client) (T : EntityType α) (routes : Routes) (call : DocumentCall α) :
    (call.plan c T routes).1.Checked (call.Misused T routes) := by
  cases call with
  | get id options => exact c.checked_get T id options routes
  | getWithSystem id options => exact c.checked_getWithSystem T id options routes
  | insert e => exact c.checked_insert T e routes
  | update e => exact c.checked_update T e routes
  | upsert e => exact c.checked_upsertWith T e {} routes
  | upsertWith e options => exact c.checked_upsertWith T e options routes
  | delete db id revision batch => exact c.checked_delete db id revision batch routes
  | deleteEntity e batch => exact c.checked_deleteEntity T e batch routes

end DocumentCall

/-- A call that is done in one exchange at most. -/
inductive SingleCall (α β ε : Type) : Type 1 where
  | document (call : DocumentCall α)
  | getDesign (db : DatabaseName) (id : DocId)
  | getDesignWithSystem (db : DatabaseName) (id : DocId) (options : ReadOptions)
  | upsertDesign (db : DatabaseName) (d : DesignDocument)
  | deleteDesign (db : DatabaseName) (id : DocId) (revision : Revision) (batch : Bool)
  | rawView (db : DatabaseName) (design : DocId) (name : String) (request : ViewRequest)
  | view (values : Reader β) (db : DatabaseName) (design : DocId) (name : String) (request : ViewRequest)
  | writeBatch (upserts : List α) (deletions : List Deletion)
  | writeBatchIn (db : DatabaseName) (upserts : List α) (deletions : List Deletion)
  | readBatch (ids : List DocId)
  /-- By a dispatch that is built in some steps. -/
  | readBatchIn (db : DatabaseName) (ids : List DocId) (steps : List (Dispatch.Step ε))

namespace SingleCall

variable {α β ε : Type}

/-- What a call gives. -/
def Result : SingleCall α β ε → Type
  | .document call => call.Result
  | .getDesign .. => Option DesignDocument
  | .getDesignWithSystem .. => SystemFields × Option DesignDocument
  | .upsertDesign .. => Written DesignDocument
  | .deleteDesign .. => WriteReply
  | .rawView .. => RawRows
  | .view .. => ViewRows β
  | .writeBatch .. | .writeBatchIn .. => BatchWritten α
  | .readBatch .. => BatchRead α
  | .readBatchIn .. => BatchRead ε

/-- The plan of a call. -/
def plan (c : Client) (T : EntityType α) : (call : SingleCall α β ε) → Plan call.Result
  | .document call => call.plan c T
  | .getDesign db id => c.getDesign db id
  | .getDesignWithSystem db id options => c.getDesignWithSystem db id options
  | .upsertDesign db d => c.upsertDesign db d
  | .deleteDesign db id revision batch => c.deleteDesign db id revision batch
  | .rawView db design name request => c.rawView db design name request
  | .view values db design name request => c.view values db design name request
  | .writeBatch upserts deletions => c.writeBatch T upserts deletions
  | .writeBatchIn db upserts deletions => c.writeBatchIn T db upserts deletions
  | .readBatch ids => c.readBatch T ids
  | .readBatchIn db ids steps => c.readBatchIn db ids (Dispatch.build steps)

/-- A batch has a member that is not as it should be. -/
def WrongMember (T : EntityType α) : SingleCall α β ε → Prop
  | .writeBatch upserts deletions | .writeBatchIn _ upserts deletions => Client.WrongMember T upserts deletions
  | .readBatch ids | .readBatchIn _ ids _ => ∃ id ∈ ids, id.isBlank = true
  | _ => False

/-- **The arguments of a call are not as they should be.** Where the database is found by the type, they are looked at
only if the type has a route. -/
def Misused (T : EntityType α) (routes : Routes) : SingleCall α β ε → Prop
  | .document call => call.Misused T routes
  | .getDesign _ id | .getDesignWithSystem _ id _ => DesignNameless id
  | .upsertDesign _ d => DesignNameless d.id
  | .deleteDesign _ id revision _ => DesignNameless id ∨ revision.isBlank = true
  | .rawView _ design name _ | .view _ _ design name _ => DesignNameless design ∨ Text.isBlank name = true
  | .writeBatch upserts deletions => Client.WrongMember T upserts deletions ∧ routes.Resolves T.name
  | .writeBatchIn _ upserts deletions => Client.WrongMember T upserts deletions
  | .readBatch ids => (∃ id ∈ ids, id.isBlank = true) ∧ routes.Resolves T.name
  | .readBatchIn _ ids _ => ∃ id ∈ ids, id.isBlank = true

theorem checked_plan (c : Client) (T : EntityType α) (routes : Routes) (call : SingleCall α β ε) :
    (call.plan c T routes).1.Checked (call.Misused T routes) := by
  cases call with
  | document call => exact call.checked_plan c T routes
  | getDesign db id => exact c.checked_getDesign db id routes
  | getDesignWithSystem db id options => exact c.checked_getDesignWithSystem db id options routes
  | upsertDesign db d => exact c.checked_upsertDesign db d routes
  | deleteDesign db id revision batch => exact c.checked_deleteDesign db id revision batch routes
  | rawView db design name request => exact c.checked_rawView db design name request routes
  | view values db design name request => exact c.checked_view values db design name request routes
  | writeBatch upserts deletions => exact c.checked_writeBatch T upserts deletions routes
  | writeBatchIn db upserts deletions => exact c.checked_writeBatchIn T db upserts deletions routes
  | readBatch ids => exact c.checked_readBatch T ids routes
  | readBatchIn db ids steps =>
    exact c.checked_readBatchIn db ids (Dispatch.late_decode steps · c.settings.classField) routes

/-- A batch with a wrong member is refused as a whole, if not for the member then for lack of a route. -/
theorem refused_of_wrongMember (c : Client) (T : EntityType α) (routes : Routes) {call : SingleCall α β ε}
    (h : call.WrongMember T) : ∃ e, (call.plan c T routes).1 = .done (.error e) ∧ e.isUpfront = true := by
  cases call with
  | writeBatch upserts deletions =>
    exact Routes.refused_require (c.writeBatch_eq T upserts deletions)
      (fun route => c.checked_writeBatchIn T route.database upserts deletions) h routes
  | writeBatchIn db upserts deletions => exact (c.checked_writeBatchIn T db upserts deletions routes).refused h
  | readBatch ids =>
    exact Routes.refused_require (c.readBatch_eq T ids) (c.checked_readBatchIn_single T ids) h routes
  | readBatchIn db ids steps =>
    exact (checked_plan c T routes (.readBatchIn db ids steps : SingleCall α β ε)).refused h
  | _ => exact h.elim

/-- **Checks come before the network.** Every call, whatever its arguments are, whichever types have routes and whatever
becomes of its request, sends one request at most; it sends none where it fails for a misuse, for lack of a good route
or for lack of a stored form; it fails for a misuse exactly if it is misused; one wrong member anywhere keeps a whole
batch from being sent; and a batch without members goes through with nothing sent. -/
theorem checks_first (c : Client) (T : EntityType α) (routes : Routes) (answers : List Answer) :
    (∀ call : SingleCall α β ε,
      Call.ChecksFirst (call.Misused T routes) answers ((call.plan c T routes).1.make answers)
        ∧ (call.WrongMember T → ∃ e, (call.plan c T routes).1.make answers = ⟨.error e, [], answers⟩))
      ∧ ∀ db : DatabaseName, (c.writeBatchIn T db [] [] routes).1.make answers = ⟨.ok ⟨[], [], []⟩, [], answers⟩
        ∧ ∀ steps : List (Dispatch.Step ε),
          (c.readBatchIn db [] (Dispatch.build steps) routes).1.make answers = ⟨.ok {}, [], answers⟩ := by
  refine ⟨fun call => ⟨(checked_plan c T routes call).checksFirst answers, fun hwrong => ?_⟩, fun db => ⟨?_, ?_⟩⟩
  · obtain ⟨e, he, -⟩ := refused_of_wrongMember c T routes hwrong
    exact ⟨e, by rw [he, Call.make]⟩
  · rw [c.writeBatchIn_nil T db routes, Call.make]
  · intro steps
    rw [c.readBatchIn_nil db _ routes, Call.make]

/-- The second of two entities has no name: neither is sent, and the server is not asked. -/
example : ((Client.sample.writeBatchIn EntityKind.test.type ⟨"db"⟩
      [.test { id := ⟨"a"⟩, label := "x" }, .test { id := ⟨" "⟩, label := "y" }] [] .sample).1.make [.silent])
    = ⟨.error (.invariantViolation "document id must not be blank"), [], [.silent]⟩ := by
  rfl

end SingleCall
end DocClient
