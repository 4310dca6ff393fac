/-
# The requests for batches

A batch of writes is posted as one list of documents, and a batch of reads as one list of names, each in the order that
it was given in:

| batch | posted to | the element | stands at |
| --- | --- | --- | --- |
| of writes | `_bulk_docs` | the stored form of the `i`-th entity | `i` |
| | | the deletion of the `j`-th document to be deleted | `j` behind the entities |
| of reads | `_bulk_get` | the `i`-th name | `i` |

The stored form of an entity in a batch is the one that a write of the entity alone puts (`Client.Puts`), and a batch is
sent exactly if nothing stands against it and it is not empty (`Client.batches_posted`). It is for the database that it
was meant for, unless no segment can be made of the name of the database: a batch for the database `.` is posted to
`/_bulk_docs`, which is that of no database (`Client.batch_for_dots`).
-/

import DocClient.Proofs.Store.Addressing
import DocClient.Proofs.Store.Checks
import DocClient.Proofs.Store.Writing

namespace DocClient

open Outcome

/-- A deletion in a batch has three members, and is told from live documents by one of them. -/
theorem Deletion.toObject_eq (d : Deletion) :
    d.toObject = [("_deleted", .bool true), ("_id", .str d.id.text), ("_rev", .str d.revision.text)]
      ∧ Envelope.isTombstone d.toObject = true := by
  have horder : ¬("_rev" < "_id") ∧ "_deleted" < "_id" := by decide
  have hmembers : d.toObject = [("_deleted", .bool true), ("_id", .str d.id.text), ("_rev", .str d.revision.text)] := by
    simp only [toObject, Table.ofList, List.foldl_cons, List.foldl_nil, Table.insert, horder.1, horder.2, if_true, if_false,
      String.reduceEq]
  refine ⟨hmembers, ?_⟩
  rw [hmembers]
  rfl

/-- A call that sends a request sends no other. -/
theorem Call.sent_make {α : Type} {call : Call α} {r : Request} (h : call.request? = some r) (answers : List Answer) :
    (call.make answers).sent = [r] := by
  cases call with
  | done result => exact nomatch h
  | send request receive =>
    obtain rfl := Option.some.inj h
    rfl

/-- A request posts a list of documents to a name in a database, with other members beside them. -/
structure Request.IsBatch (r : Request) (c : Client) (db : DatabaseName) (name : String) (docs : List Json)
    (others : Object) : Prop where
  method : r.method = .post
  body : r.body = some (.obj (("docs", .arr docs) :: others))
  place : r.place = c.place [db.text, name]
  /-- The request is for the name in the database exactly if a segment can be made of the name of the database. -/
  addressed : c.HasPlainBase → (r.Addresses c.leadingPath db.text name ↔ IsSegmentName db.text)
  based : c.HasPlainBase → Url.EndsPlainly c.settings.server.toList → c.leadingPath = c.basePath

namespace Client

variable {α ε : Type} {c : Client} {T : EntityType α} {D : Dispatch ε} {db : DatabaseName} {upserts : List α}
  {deletions : List Deletion} {ids : List DocId} {routes : Routes} {r : Request}

/-- A write of an entity alone puts a document: that is what it has to send, and what it sends if a URL can be made for
it. -/
structure Puts (c : Client) (T : EntityType α) (routes : Routes) (e : α) (doc : Object) : Prop where
  errand : ∃ d, (DocumentCall.upsert e).errand? c T routes = some d ∧ d.method = .put ∧ d.body = some (.obj doc)
  sent : c.HasPlainBase → ∃ q, (c.upsert T e routes).1.request? = some q
  put : ∀ q, (c.upsert T e routes).1.request? = some q → q.method = .put ∧ q.body = some (.obj doc)

/-- **The documents of a batch of writes** stand in the order of the entities and then of the deletions. -/
structure WritesInOrder (c : Client) (T : EntityType α) (routes : Routes) (upserts : List α)
    (deletions : List Deletion) (docs : List Json) : Prop where
  length : docs.length = upserts.length + deletions.length
  /-- In the place of an entity stands what a write of the entity alone puts. -/
  upsert : ∀ (i : Nat) (e : α), upserts[i]? = some e →
    ∃ doc, docs[i]? = some (Json.obj doc) ∧ c.Puts T routes e doc
  /-- In the place of a deletion stand its name and its revision, marked as deleted. -/
  deletion : ∀ (j : Nat) (d : Deletion), deletions[j]? = some d → ∃ doc, docs[upserts.length + j]? = some (Json.obj doc)
    ∧ doc = [("_deleted", .bool true), ("_id", .str d.id.text), ("_rev", .str d.revision.text)]
    ∧ Envelope.isTombstone doc = true

theorem isBatch_of_request? {name : String} {docs : List Json} {others : Object} (hname : IsSegmentName name)
    (h : c.request? .post [db.text, name] none (some (.obj (("docs", .arr docs) :: others))) = some r) :
    r.IsBatch c db name docs others := by
  obtain ⟨hmethod, hbody, hplace⟩ := sent_of_request? h
  have hfor := isFor_of_request? h
  exact ⟨hmethod, hbody, hplace, fun hplain => (hfor.addressed hplain).trans (and_iff_left hname), hfor.based⟩

theorem batchBody_eq (docs : List Json) : batchBody docs = .obj [("docs", .arr docs), ("new_edits", .bool true)] := by
  have horder : ¬("new_edits" < "docs") := by decide
  simp only [batchBody, Json.ofMembers, Table.ofList, List.foldl_cons, List.foldl_nil, Table.insert, horder, if_false,
    String.reduceEq]

theorem batchIds_eq (ids : List DocId) :
    batchIds ids = .obj [("docs", .arr (ids.map fun id => .obj [("id", .str id.text)]))] := rfl

/-- Something is sent for a path exactly if a URL can be made of it. -/
theorem exists_request?_iff {method : Method} {path : List String} {options : Option (List (String × String))}
    {body : Option Json} :
    (∃ r, c.request? method path options body = some r) ↔ (Url.parse? (c.locate path)).isSome := by
  rw [← Option.isSome_iff_exists, request?, Option.isSome_map]

/-- What a batch of reads sends: it is refused for a name that is blank, and done if it is empty. -/
theorem request?_readBatchIn :
    (c.readBatchIn db ids D routes).1.request? = some r
      ↔ ids ≠ [] ∧ (∀ id ∈ ids, id.isBlank = false)
        ∧ c.request? .post [db.text, "_bulk_get"] none (some (batchIds ids)) = some r := by
  rcases refuses_forM refuses_requireId ids with ⟨⟨id, hid, hblank⟩, m, hm⟩ | ⟨hright, -⟩
  · have hnot : ¬∀ id ∈ ids, id.isBlank = false := fun hall => by simp [hall id hid] at hblank
    simp [readBatchIn, guarded, hm, Call.request?, hnot]
  · have hnamed : ∀ id ∈ ids, id.isBlank = false := by simpa using hright
    by_cases hids : ids = []
    · subst hids
      simp [readBatchIn_nil, Call.request?]
    · rw [readBatchIn_eq hids hnamed, request?_call]
      exact ⟨fun h => ⟨hids, hnamed, h⟩, fun h => h.2.2⟩

/-- An entity of a batch that has a stored form is put as that if it is written alone. -/
theorem puts_of_encode {route : Route} {after : Routes} (hresolve : routes.resolve T.name = .ok (route, after)) {e : α}
    {doc : Object} (hnamed : (T.id e).isBlank = false)
    (hencode : Envelope.encode c.style route.className (T.toJson e) = .ok doc)
    (hserver : c.HasPlainBase → (Url.parse? (c.locate [""])).isSome) : c.Puts T routes e doc := by
  have hroute : DocumentCall.route? T routes = some route := by
    rw [DocumentCall.route?, hresolve]
    rfl
  have herrand : (DocumentCall.upsert e).errand? c T routes
      = some ⟨.put, route.database, T.id e, WriteOptions.query {}, some (.obj doc)⟩ :=
    DocumentCall.write?_eq_some.2 ⟨hnamed, route, doc, hroute, hencode, rfl⟩
  have hrequest : (c.upsert T e routes).1.request? = c.request? .put [route.database.text, (T.id e).text]
      (some (WriteOptions.query {})) (some (.obj doc)) := by
    have hsent : (DocumentCall.upsert e).request? c T routes
        = ((DocumentCall.upsert e).errand? c T routes).bind (Errand.request? c) := DocumentCall.request?_eq _
    rwa [herrand, Option.bind_some] at hsent
  refine ⟨⟨_, herrand, rfl, rfl⟩, fun hplain => ?_, fun q hq => ?_⟩
  · rw [hrequest, ← Option.isSome_iff_exists,
      isSome_request? hplain.absolute hplain.query hplain.fragment (List.cons_ne_nil _ _)]
    exact hserver hplain
  · rw [hrequest] at hq
    obtain ⟨hmethod, hbody, -⟩ := sent_of_request? hq
    exact ⟨hmethod, hbody⟩

/-- The stored forms of entities that are written, and the deletions behind them, stand in their order. -/
theorem writesInOrder_of_encode {route : Route} {after : Routes} (hresolve : routes.resolve T.name = .ok (route, after))
    {docs : List Object} (hright : ¬WrongMember T upserts deletions)
    (hdocs : (upserts.mapM fun e => Envelope.encode c.style route.className (T.toJson e)) = .ok docs)
    (hserver : c.HasPlainBase → (Url.parse? (c.locate [""])).isSome) :
    WritesInOrder c T routes upserts deletions ((docs ++ deletions.map Deletion.toObject).map .obj) := by
  have hlength : docs.length = upserts.length := length_of_mapM hdocs
  refine ⟨by simp [hlength], fun i e he => ?_, fun j d hd => ?_⟩
  · obtain ⟨doc, hencode, hdoc⟩ := getElem?_of_mapM hdocs he
    have hi : i < docs.length := (List.getElem?_eq_some_iff.1 hdoc).1
    have hnamed : (T.id e).isBlank = false := by
      by_contra hblank
      exact hright (.inl ⟨e, List.mem_of_getElem? he, by simpa using hblank⟩)
    refine ⟨doc, ?_, puts_of_encode hresolve hnamed hencode hserver⟩
    rw [List.getElem?_map, List.getElem?_append_left hi, hdoc, Option.map_some]
  · refine ⟨d.toObject, ?_, d.toObject_eq⟩
    rw [List.getElem?_map, List.getElem?_append_right (by omega), hlength, Nat.add_sub_cancel_left, List.getElem?_map,
      hd, Option.map_some, Option.map_some]

/-- **A batch is one request with its documents in their order.** A batch of writes is sent exactly if no member of it
is wrong, it is not empty, its type has a route, its entities have stored forms and a URL can be made for it. The
request posts the documents that writes of the entities alone would put, and behind them the deletions. A batch of reads
is sent exactly if it is not empty, none of its names is blank and a URL can be made for it, and its request posts the
names as they were given. -/
theorem batches_posted (c : Client) (T : EntityType α) (D : Dispatch ε) (db : DatabaseName) (upserts : List α)
    (deletions : List Deletion) (ids : List DocId) (routes : Routes) (answers : List Answer) :
    ((∃ r, (c.writeBatchIn T db upserts deletions routes).1.request? = some r)
      ↔ ¬WrongMember T upserts deletions ∧ (upserts ≠ [] ∨ deletions ≠ [])
        ∧ (∃ route after, routes.resolve T.name = .ok (route, after)
          ∧ ∀ e ∈ upserts, ∃ doc, Envelope.encode c.style route.className (T.toJson e) = .ok doc)
        ∧ (Url.parse? (c.locate [db.text, "_bulk_docs"])).isSome)
    ∧ (∀ r, (c.writeBatchIn T db upserts deletions routes).1.request? = some r →
        ((c.writeBatchIn T db upserts deletions routes).1.make answers).sent = [r]
          ∧ ∃ docs, r.IsBatch c db "_bulk_docs" docs [("new_edits", .bool true)]
            ∧ WritesInOrder c T routes upserts deletions docs)
    ∧ ((∃ r, (c.readBatchIn db ids D routes).1.request? = some r)
      ↔ ids ≠ [] ∧ (∀ id ∈ ids, id.isBlank = false) ∧ (Url.parse? (c.locate [db.text, "_bulk_get"])).isSome)
    ∧ ∀ r, (c.readBatchIn db ids D routes).1.request? = some r →
        ((c.readBatchIn db ids D routes).1.make answers).sent = [r]
          ∧ r.IsBatch c db "_bulk_get" (ids.map fun id => .obj [("id", .str id.text)]) [] := by
  refine ⟨?_, fun r hr => ?_, ?_, fun r hr => ?_⟩
  · simp only [request?_writeBatchIn]
    constructor
    · rintro ⟨r, hright, hsome, route, after, docs, hresolve, hdocs, hr⟩
      exact ⟨hright, hsome, ⟨route, after, hresolve, exists_mapM_iff.1 ⟨docs, hdocs⟩⟩, exists_request?_iff.1 ⟨r, hr⟩⟩
    · rintro ⟨hright, hsome, ⟨route, after, hresolve, hencode⟩, hlocated⟩
      obtain ⟨docs, hdocs⟩ := exists_mapM_iff.2 hencode
      obtain ⟨r, hr⟩ := exists_request?_iff.2 hlocated
      exact ⟨r, hright, hsome, route, after, docs, hresolve, hdocs, hr⟩
  · obtain ⟨hright, -, route, after, docs, hresolve, hdocs, hbatch⟩ := request?_writeBatchIn.1 hr
    rw [batchBody_eq] at hbatch
    have hserver : c.HasPlainBase → (Url.parse? (c.locate [""])).isSome := by
      intro hplain
      rw [← isSome_request? hplain.absolute hplain.query hplain.fragment (List.cons_ne_nil _ _), hbatch]
      rfl
    exact ⟨Call.sent_make hr answers, _, isBatch_of_request? ⟨by decide, by decide⟩ hbatch,
      writesInOrder_of_encode hresolve hright hdocs hserver⟩
  · simp only [request?_readBatchIn, exists_and_left, exists_request?_iff]
  · obtain ⟨-, -, hbatch⟩ := request?_readBatchIn.1 hr
    rw [batchIds_eq] at hbatch
    exact ⟨Call.sent_make hr answers, isBatch_of_request? ⟨by decide, by decide⟩ hbatch⟩

/-- Two entities, of which the first was read and the second is new. -/
def samplePair : List StockEntity := [labelled, .test { id := ⟨"b"⟩, label := "m" }]

/-- A batch of two entities and a deletion is one request for three documents. -/
theorem batches_posted_sample : ∃ r docs,
    (sample.writeBatchIn EntityKind.test.type ⟨"db"⟩ samplePair [⟨⟨"c"⟩, ⟨"2-y"⟩⟩] .sample).1.request? = some r
      ∧ r.IsBatch sample ⟨"db"⟩ "_bulk_docs" docs [("new_edits", .bool true)] ∧ docs.length = 3
      ∧ WritesInOrder sample EntityKind.test.type .sample samplePair [⟨⟨"c"⟩, ⟨"2-y"⟩⟩] docs := by
  obtain ⟨hsent, hposted, -⟩ := batches_posted sample EntityKind.test.type sampleDispatch ⟨"db"⟩ samplePair
    [⟨⟨"c"⟩, ⟨"2-y"⟩⟩] [] .sample []
  have hright : ¬WrongMember EntityKind.test.type samplePair [⟨⟨"c"⟩, ⟨"2-y"⟩⟩] := by
    simp only [WrongMember, samplePair, List.mem_cons, List.not_mem_nil, or_false, exists_eq_or_imp, exists_eq_left]
    decide
  have hresolve : Routes.sample.resolve EntityKind.test.type.name = .ok (⟨⟨"db"⟩, ⟨"Test"⟩⟩, .sample) := by
    decide +kernel
  have hencode : ∀ e ∈ samplePair, ∃ doc,
      Envelope.encode sample.style ⟨"Test"⟩ (EntityKind.test.type.toJson e) = .ok doc := by
    intro e he
    have hfits : e.kind = .test ∧ e.Fits := by
      simp only [samplePair, List.mem_cons, List.not_mem_nil, or_false] at he
      have hzero : Reader.minInt64 ≤ 0 ∧ 0 ≤ Reader.maxInt64 := by decide
      rcases he with rfl | rfl
      · exact ⟨rfl, hzero⟩
      · exact ⟨rfl, hzero⟩
    exact ⟨_, Envelope.encode_eq EntityKind.test.faithful hfits _ _⟩
  obtain ⟨r, hr⟩ := hsent.2 ⟨hright, .inr (by simp), ⟨_, _, hresolve, hencode⟩, by decide +kernel⟩
  obtain ⟨-, docs, hbatch, horder⟩ := hposted r hr
  exact ⟨r, docs, hr, hbatch, horder.length, horder⟩

/-- **A batch for the database `.` or `..` is posted to no database.** -/
theorem batch_for_dots :
    (sample.writeBatchIn EntityKind.test.type ⟨"."⟩ samplePair [] .sample).1.request?.map Request.target
        = some "/_bulk_docs"
      ∧ (sample.writeBatchIn EntityKind.test.type ⟨".."⟩ samplePair [] .sample).1.request?.map Request.target
        = some "/_bulk_docs" := by
  decide +kernel

end Client
end DocClient
