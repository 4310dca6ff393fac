/-
# The calls of a client for one document

What the calls of a client come to where the type of an entity has its route (`Site.Routed`). A call is either done
before anything is sent or it sends the one request for the document:

| call | entity without revision | entity with a revision that means something |
| --- | --- | --- |
| `insert` | PUT without `_rev` | misuse |
| `update` | misuse | PUT with the revision under `_rev` |
| `deleteEntity` | misuse | DELETE with the revision as `rev` |
-/

import DocClient.Proofs.Client
import DocClient.Proofs.Store.Server

namespace DocClient

namespace Client

variable {α : Type} {c : Client} {T : EntityType α} {fields : List String} {Valid : α → Prop} {routes after : Routes}
  {route : Route} {e : α}

theorem requireId_eq {id : DocId} (h : id.isBlank = false) : requireId id = .ok () := by
  rw [requireId, h]
  rfl

/-- An entity of a type with a route is written to its document. -/
theorem upsert_eq_put (hT : T.Faithful fields Valid) (hvalid : Valid e)
    (hresolve : routes.resolve T.name = .ok (route, after)) (hid : (T.id e).isBlank = false) :
    (c.upsert T e routes).1 = c.putDocument T [route.database.text, (T.id e).text]
      (Envelope.wrapped c.style route.className (T.members e)) {} e := by
  have hencode := Envelope.encode_eq hT hvalid c.style route.className
  simp only [upsert, upsertWith, Plan.of, Prepared.run_bind, Prepared.run_of, Prepared.run_pure,
    Routes.run_require hresolve, requireId_eq hid, hencode]

/-- An entity with a revision is updated by writing it. -/
theorem update_eq_put (hT : T.Faithful fields Valid) (hvalid : Valid e)
    (hresolve : routes.resolve T.name = .ok (route, after)) (hid : (T.id e).isBlank = false) {rev : Revision}
    (hrev : T.revision e = some rev) (hrevBlank : rev.isBlank = false) :
    (c.update T e routes).1 = c.putDocument T [route.database.text, (T.id e).text]
      (Envelope.wrapped c.style route.className (T.members e)) {} e := by
  have hall : (T.revision e).all Revision.isBlank = false := by
    rw [hrev]
    exact hrevBlank
  simp only [update, guarded, requireId_eq hid, hall, forbid_false, Outcome.ok_bind]
  exact upsert_eq_put hT hvalid hresolve hid

/-- An entity with a revision is deleted at its document and its revision. -/
theorem deleteEntity_eq_delete (hresolve : routes.resolve T.name = .ok (route, after))
    (hid : (T.id e).isBlank = false) {rev : Revision} (hrev : T.revision e = some rev) (hrevBlank : rev.isBlank = false)
    (batch : Bool) : (c.deleteEntity T e batch routes).1
      = c.deleteDocument [route.database.text, (T.id e).text] rev batch := by
  simp only [deleteEntity, Prepared.run_bind, Prepared.run_of, Prepared.run_pure, Routes.run_require hresolve,
    requireId_eq hid, Deletion.of, hrev, delete, guarded, hrevBlank, forbid_false, Outcome.ok_bind]

end Client

namespace Site

variable {α : Type} (S : Site α)

/-- The path of the document. -/
def path : List String := [S.route.database.text, S.id.text]

/-- Where the server of the clients keeps the document. -/
def shelf : Shelf := ⟨S.client.leadingPath, S.route.database, S.id⟩

/-- A request of the clients is for the document. -/
def IsFor (r : Request) : Prop := r.IsFor S.client S.route.database.text S.id.text

variable {S} in
/-- The server finds a request for the document to be that, if segments can be made of the names. -/
theorem IsFor.addresses {r : Request} (h : S.IsFor r) (plain : S.client.HasPlainBase)
    (names : IsSegmentName S.route.database.text ∧ IsSegmentName S.id.text) :
    r.Addresses S.shelf.base S.shelf.database.text S.shelf.id.text := by
  dsimp only [shelf]
  exact (h.addressed plain).2 names

/-- The entity type has its route. -/
def Routed (routes : Routes) : Prop := ∃ after, routes.resolve S.type.name = .ok (S.route, after)

/-- The body that an entity is written with. -/
def body (e : α) : Object := Envelope.wrapped S.client.style S.route.className (S.type.members e)

/-- What writing an entity sends, and what it makes of the reply. -/
def put (e : α) : Call (Written α) := S.client.putDocument S.type S.path (S.body e) {} e

/-- What reading the entity sends, and what it makes of the reply. -/
def read : Call (Option α) :=
  ((S.client.readDocument S.path {}).andThen
    (decodeFound (Envelope.decode S.type.reader S.classField))).andThen fun found => .ok found.2

variable {S} {routes : Routes} {e : α}

theorem requireId_eq : requireId S.id = .ok () := Client.requireId_eq S.named

/-- An entity that fits is written as its body. -/
theorem upsert_eq (hroutes : S.Routed routes) (hvalid : S.Valid e) (hid : S.type.id e = S.id) :
    (S.client.upsert S.type e routes).1 = S.put e := by
  obtain ⟨after, hresolve⟩ := hroutes
  rw [Client.upsert_eq_put S.faithful hvalid hresolve (hid ▸ S.named), hid]
  rfl

/-- An entity that fits is written unless the caller misused the call. -/
theorem guarded_upsert_eq (hroutes : S.Routed routes) (hvalid : S.Valid e) (hid : S.type.id e = S.id) (misused : Bool)
    (m : Misuse) :
    (Client.guarded (do requireId (S.type.id e); forbid misused m) (S.client.upsert S.type e) routes).1
      = if misused then .done (.error (.misuse m)) else S.put e := by
  cases misused with
  | true => simp [Client.guarded, hid, requireId_eq]
  | false => simp [Client.guarded, hid, requireId_eq, upsert_eq hroutes hvalid hid]

/-- What an insertion comes to. -/
theorem insert_eq (hroutes : S.Routed routes) (hvalid : S.Valid e) (hid : S.type.id e = S.id) :
    (S.client.insert S.type e routes).1
      = if (S.type.revision e).isSome then .done (.error (.misuse (.insertWithRevision S.id))) else S.put e := by
  rw [Client.insert, guarded_upsert_eq hroutes hvalid hid, hid]

/-- What an update comes to. -/
theorem update_eq (hroutes : S.Routed routes) (hvalid : S.Valid e) (hid : S.type.id e = S.id) :
    (S.client.update S.type e routes).1
      = if (S.type.revision e).all Revision.isBlank then .done (.error (.misuse (.updateWithoutRevision S.id)))
        else S.put e := by
  rw [Client.update, guarded_upsert_eq hroutes hvalid hid, hid]

/-- An entity without revision is not deleted. -/
theorem deleteEntity_of_none (hid : S.type.id e = S.id) (hrev : S.type.revision e = none) (batch : Bool) :
    (S.client.deleteEntity S.type e batch routes).1 = .done (.error (.misuse (.deleteOfUnsaved S.id))) := by
  simp only [Client.deleteEntity, Prepared.run_bind, Prepared.run_of, hid, requireId_eq, Deletion.of, hrev]

/-- An entity is deleted at its revision. -/
theorem deleteEntity_of_some (hroutes : S.Routed routes) (hid : S.type.id e = S.id) {rev : Revision}
    (hrev : S.type.revision e = some rev) (hrevBlank : rev.isBlank = false) (batch : Bool) :
    (S.client.deleteEntity S.type e batch routes).1 = S.client.deleteDocument S.path rev batch := by
  obtain ⟨after, hresolve⟩ := hroutes
  rw [Client.deleteEntity_eq_delete hresolve (hid ▸ S.named) hrev hrevBlank, hid, path]

/-- What a read comes to. -/
theorem get_eq (hroutes : S.Routed routes) : (S.client.get S.type S.id {} routes).1 = S.read := by
  obtain ⟨after, hresolve⟩ := hroutes
  simp only [Client.get, Client.getWithSystem, Plan.of, Prepared.run_bind, Prepared.run_of, Prepared.run_pure,
    Routes.run_require hresolve, requireId_eq]
  rfl

theorem located_path (S : Site α) : (Url.parse? (S.client.locate S.path)).isSome := S.located

/-- What is sent for the path of the document is for the document. -/
theorem isFor_of_send {β : Type} {method : Method} {pairs : List (String × String)} {body : Option Json}
    {receive : Reply → Outcome β} {r : Request}
    (h : S.client.call method S.path (some pairs) body receive = .send r receive) : S.IsFor r := by
  have hrequest := S.client.request?_call method S.path (some pairs) body receive
  rw [h] at hrequest
  exact Client.isFor_of_request? hrequest.symm

/-- A write is one request, for the document and with its body. -/
theorem put_eq_send (S : Site α) (e : α) :
    ∃ r, S.put e = .send r (fun reply => do Written.ofReply S.type e (← writeReply [201, 202] reply))
      ∧ r.method = .put ∧ r.body = some (.obj (S.body e)) ∧ S.IsFor r := by
  obtain ⟨r, hsend, hmethod, hbody, -⟩ := Client.call_eq_send S.located_path .put ({} : WriteOptions).query
    (some (.obj (S.body e))) fun reply => do Written.ofReply S.type e (← writeReply [201, 202] reply)
  exact ⟨r, hsend, hmethod, hbody, isFor_of_send hsend⟩

/-- A deletion is one request, for the document and with its revision. -/
theorem deleteDocument_eq_send (S : Site α) (rev : Revision) (batch : Bool) :
    ∃ r, S.client.deleteDocument S.path rev batch = .send r (writeReply [200, 202])
      ∧ r.method = .delete ∧ r.option? "rev" = some rev.text ∧ S.IsFor r := by
  obtain ⟨r, hsend, hmethod, -, -, hoption⟩ := Client.call_eq_send S.located_path .delete
    (("rev", rev.text) :: if batch then [("batch", "ok")] else []) none (writeReply [200, 202])
  have hlast : (("rev", rev.text) :: if batch then [("batch", "ok")] else []).reverse.lookup "rev" = some rev.text := by
    cases batch <;> rfl
  exact ⟨r, hsend, hmethod, hoption _ _ hlast, isFor_of_send hsend⟩

/-- A read is one request, for the document. -/
theorem readDocument_eq_send (S : Site α) :
    ∃ r, S.client.readDocument S.path {} = .send r readReply ∧ r.method = .get ∧ S.IsFor r := by
  obtain ⟨r, hsend, hmethod, -⟩ := Client.call_eq_send S.located_path .get ({} : ReadOptions).query none readReply
  exact ⟨r, hsend, hmethod, isFor_of_send hsend⟩

/-- The revision that an entity is written with is that of the entity. -/
theorem get?_rev_body (hvalid : S.Valid e) (hid : S.type.id e = S.id) :
    (S.body e).get? "_rev" = (S.type.revision e).map fun rev => .str rev.text :=
  (stores_wrapped hvalid hid).get?_rev

/-- Revisions are told apart by their texts. -/
theorem map_str_text_inj {a b : Option Revision} :
    (a.map fun rev => Json.str rev.text) = (b.map fun rev => .str rev.text) ↔ a = b := by
  refine ⟨fun h => ?_, fun h => h ▸ rfl⟩
  refine Option.map_injective (fun r s hrs => ?_) h
  exact congrArg Revision.mk (Json.str.inj hrs)

/-- The failure of a call that the server refused because of the revision. -/
def Refused {β : Type} (outcome : Outcome β) : Prop := ∃ told, outcome = .error (.status .conflict told)

/-- **A write goes through exactly where the entity has the live revision.** -/
theorem served_put (hvalid : S.Valid e) (hid : S.type.id e = S.id) :
    ∃ r, (S.put e).request? = some r ∧ S.IsFor r ∧
      ∀ {history history' reply}, Serves S.shelf history r reply history' →
        (S.type.revision e = history.live?.map Prod.fst ∧ ∃ rev, history.Fresh rev
            ∧ history' = ⟨rev, some (S.body e)⟩ :: history ∧ ((S.put e).result reply.answer).map Written.entity
              = .ok (some (S.type.withRevision e rev)))
          ∨ (S.type.revision e ≠ history.live?.map Prod.fst ∧ history' = history
            ∧ Refused ((S.put e).result reply.answer)) := by
  obtain ⟨r, hsend, hmethod, hbody, hfor⟩ := S.put_eq_send e
  refine ⟨r, by rw [hsend, Call.request?], hfor, fun {history history' reply} hserve => ?_⟩
  have hagrees : (S.body e).get? "_rev" = (history.live?.map fun v => .str v.1.text)
      ↔ S.type.revision e = history.live?.map Prod.fst := by
    rw [get?_rev_body hvalid hid, ← map_str_text_inj (b := history.live?.map Prod.fst), Option.map_map]
    rfl
  rw [hsend, Call.result_send]
  rcases hserve.answers.of_put hmethod hbody with ⟨hrev, text, rev, hfresh, htold, rfl, rfl⟩ | ⟨hrev, ⟨text, rfl⟩, rfl⟩
  · refine .inl ⟨hagrees.1 hrev, rev, hfresh, rfl, ?_⟩
    rw [writeReply_of_acknowledges (by decide) htold]
    rfl
  · exact .inr ⟨fun h => hrev (hagrees.2 h), rfl, _, rfl⟩

/-- **A deletion goes through exactly where it names the live revision.** -/
theorem served_delete (S : Site α) (named : Revision) (batch : Bool) :
    ∃ r, (S.client.deleteDocument S.path named batch).request? = some r ∧ S.IsFor r ∧
      ∀ {history history' reply}, Serves S.shelf history r reply history' →
        (history.live?.map Prod.fst = some named ∧ ∃ rev, history.Fresh rev ∧ history' = ⟨rev, none⟩ :: history
            ∧ ∃ told, (S.client.deleteDocument S.path named batch).result reply.answer = .ok told)
          ∨ (history.live?.map Prod.fst ≠ some named ∧ history' = history
            ∧ Refused ((S.client.deleteDocument S.path named batch).result reply.answer)) := by
  obtain ⟨r, hsend, hmethod, hnamed, hfor⟩ := S.deleteDocument_eq_send named batch
  refine ⟨r, by rw [hsend, Call.request?], hfor, fun {history history' reply} hserve => ?_⟩
  rw [hsend, Call.result_send]
  rcases hserve.answers.of_delete hmethod hnamed with ⟨hlive, text, rev, hfresh, htold, rfl, rfl⟩ | ⟨hlive, ⟨text, rfl⟩, rfl⟩
  · exact .inl ⟨hlive, rev, hfresh, rfl, _, writeReply_of_acknowledges (by decide) htold⟩
  · exact .inr ⟨hlive, rfl, _, rfl⟩

/-- What is there can be read: nothing is, or the class stands where the server keeps a text or nothing. -/
def Legible (S : Site α) (history : History) : Prop := history.live? = none ∨ S.classField ∉ nonText

/-- **A reply with a stored document is read as the entity**, unless the class has the name of a member that is no
text: then the reply has the wrong shape. -/
theorem readReply_of_stores {doc : Object} (h : S.Stores doc e) {text : String}
    (htold : Reader.ofText Reader.object text.toList = .ok doc) :
    (S.classField ∉ nonText →
        ∃ system, (readReply ⟨200, text⟩).bind (decodeFound (Envelope.decode S.type.reader S.classField))
          = .ok (system, some e))
      ∧ (S.classField ∈ nonText →
        ∃ fault, (readReply ⟨200, text⟩).bind (decodeFound (Envelope.decode S.type.reader S.classField))
          = .error (.serialization fault)) := by
  have hread : readReply ⟨200, text⟩ = (do
      let system ← Outcome.ofRead (SystemFields.reader.ofJson (.obj (Envelope.split doc).1))
      return (system, some (Envelope.split doc).2)) := by
    simp only [readReply, htold, Outcome.ofRead_ok, Outcome.ok_bind]
  rw [hread]
  constructor
  · intro hc
    obtain ⟨system, hsystem⟩ := h.system_readable hc
    refine ⟨system, ?_⟩
    rw [hsystem, Outcome.ofRead_ok, Outcome.ok_bind, Outcome.pure_eq_ok]
    simp only [Except.bind, decodeFound, h.decode_split, Outcome.map_ok]
  · intro hc
    cases hsystem : SystemFields.reader.ofJson (.obj (Envelope.split doc).1) with
    | ok system => exact absurd hsystem (h.system_unreadable hc system)
    | error fault => exact ⟨fault, rfl⟩

/-- **A read gives the entity that is there now** exactly if that can be read. -/
theorem served_get (S : Site α) :
    ∃ r, S.read.request? = some r ∧ S.IsFor r ∧
      ∀ {history history' reply}, S.Kept history → Serves S.shelf history r reply history' → history' = history
        ∧ (S.Legible history → S.read.result reply.answer = .ok (S.current history))
        ∧ (¬S.Legible history → ∃ fault, S.read.result reply.answer = .error (.serialization fault)) := by
  obtain ⟨r, hsend, hmethod, hfor⟩ := S.readDocument_eq_send
  refine ⟨r, by rw [read, Call.request?_andThen, Call.request?_andThen, hsend, Call.request?], hfor, ?_⟩
  intro history history' reply hkept hserve
  obtain ⟨rfl, hreply⟩ := hserve.answers.of_get hmethod
  have hresult : S.read.result reply.answer
      = ((readReply reply).bind (decodeFound (Envelope.decode S.type.reader S.classField))).bind
          fun found => .ok found.2 := by
    rw [read, Call.result_andThen, Call.result_andThen, hsend, Call.result_send]
  refine ⟨rfl, ?_⟩
  rcases hreply with ⟨rev, body, text, hlive, htold, rfl⟩ | ⟨hlive, text, rfl⟩
  · obtain ⟨e, he⟩ := hkept.stores _ (History.mem_of_live? hlive) body rfl
    obtain ⟨hlegible, hillegible⟩ := readReply_of_stores he htold
    rw [current_eq_some hlive he, hresult, Legible, hlive]
    refine ⟨fun hc => ?_, fun hc => ?_⟩
    · obtain ⟨system, hsystem⟩ := hlegible (hc.resolve_left (by simp))
      rw [hsystem]
      rfl
    · obtain ⟨fault, hfault⟩ := hillegible (by simpa using hc)
      exact ⟨fault, by rw [hfault]; rfl⟩
  · rw [current_eq_none hlive, hresult]
    exact ⟨fun _ => rfl, fun hnot => absurd (.inl hlive) hnot⟩

end Site
end DocClient
