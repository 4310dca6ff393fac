/-
# The name and the revision of a decoded entity

A stored document has its name under `_id` and its revision under `_rev`, and an entity that is decoded from it has the
two, unless the document has a member of its own under the name that the domain has for one of them:

| the document has | the entity has |
| --- | --- |
| nothing under `id` | the name of the document |
| something under `id`, which is the class field | the name of the document |
| something else under `id` | what is there for its name, if it is a text |

The same holds of `revision`. An entity with another name than its document is written to and deleted from another
document later on, so `Envelope.Undisputed` is what it takes for an entity to stay with its document
(`Envelope.identity_of_decode`).
-/

import DocClient.Proofs.Feed.Records
import DocClient.Proofs.Store.Calls

namespace DocClient

namespace Fields

variable {α β : Type} {cells : Cells}

/-- A record is read field by field. -/
theorem build_seq_eq_ok {f : Fields (α → β)} {x : Fields α} {b : β} :
    (f <*> x).build cells = .ok b ↔ ∃ g, f.build cells = .ok g ∧ ∃ a, x.build cells = .ok a ∧ g a = b := by
  rw [build_seq]
  simp only [Outcome.bind_eq_ok, Except.ok.injEq]

theorem build_map_eq_ok {x : Fields α} {g : α → β} {b : β} :
    (g <$> x).build cells = .ok b ↔ ∃ a, x.build cells = .ok a ∧ g a = b := by
  rw [build_map]
  simp only [Outcome.bind_eq_ok, Except.ok.injEq]

/-- An object may leave out a field that may be null. -/
theorem build_optional {name : String} {r : Reader α} {o : Object} :
    (optional name r).build (.ofObject o .value) = (nullable name r).build (.ofObject o .value) := by
  simp only [optional, nullable, defaulted, single, Cells.ofObject, Bool.false_eq_true, if_false]

/-- A revision is read off what is there, unless it is null. -/
theorem build_revision {o : Object} {rev : Option Revision}
    (h : (nullable "revision" Revision.reader).build (.ofObject o .value) = .ok rev) :
    (o.get? "revision").filter Envelope.isPresent = rev.map fun r => .str r.text := by
  rcases build_nullable.1 h with ⟨hnone | hnull, rfl⟩ | ⟨v, r, hv, -, hr, rfl⟩
  · rw [hnone]
    rfl
  · rw [hnull]
    rfl
  · rw [hv, ChangeRecord.rev_ofJson.1 hr]
    rfl

end Fields

namespace Reader

/-- An integer that was read is within its bounds. -/
theorem bounds_of_integer {low high n : Int} {expected : String} {o : Origin} {d : Draft}
    (h : integer low high expected o d = .ok n) : low ≤ n ∧ n ≤ high := by
  unfold integer at h
  split at h
  · split at h
    · rename_i hbounds
      exact Except.ok.inj h ▸ hbounds
    · exact nomatch h
  · cases d <;> exact nomatch h

/-- A natural number that was read is within its bound. -/
theorem le_of_natural {high n : Nat} {expected : String} {o : Origin} {d : Draft}
    (h : natural high expected o d = .ok n) : n ≤ high := by
  obtain ⟨i, hi, rfl⟩ := Outcome.map_eq_ok.1 h
  have hbounds := bounds_of_integer hi
  omega

end Reader

namespace EntityType

variable {α ε : Type}

/-- An entity was read off an object. -/
structure ReadOff (T : EntityType α) (Valid : α → Prop) (o : Object) (e : α) : Prop where
  valid : Valid e
  get?_id : o.get? "id" = some (.str (T.id e).text)
  /-- The revision may be null or missing. -/
  get?_revision : (o.get? "revision").filter Envelope.isPresent = (T.revision e).map fun r => .str r.text

/-- Entities of a type are read off their names and revisions. -/
def ReadsIdentity (T : EntityType α) (Valid : α → Prop) : Prop :=
  ∀ o : Object, (Json.obj o).Canonical → ∀ e, T.reader.ofJson (.obj o) = .ok e → T.ReadOff Valid o e

end EntityType

theorem TestEntity.readsIdentity : type.ReadsIdentity Fits := by
  intro o ho e he
  have hbuild := Reader.build_of_ofJson_record he
  simp only [Fields.build_seq_eq_ok, Fields.build_map_eq_ok, Fields.build_optional] at hbuild
  obtain ⟨_, ⟨_, ⟨_, ⟨id, hid, rfl⟩, rev, hrev, rfl⟩, label, -, rfl⟩, count, hcount, rfl⟩ := hbuild
  refine ⟨?_, ChangeRecord.build_id.1 hid, Fields.build_revision hrev⟩
  rcases Fields.build_defaulted.1 hcount with ⟨-, rfl⟩ | ⟨v, -, hv⟩
  · have hzero : Reader.minInt64 ≤ 0 ∧ 0 ≤ Reader.maxInt64 := by decide
    exact hzero
  · exact Reader.bounds_of_integer hv

theorem OtherEntity.readsIdentity : type.ReadsIdentity Fits := by
  intro o ho e he
  have hbuild := Reader.build_of_ofJson_record he
  simp only [Fields.build_seq_eq_ok, Fields.build_map_eq_ok, Fields.build_optional] at hbuild
  obtain ⟨_, ⟨_, ⟨id, hid, rfl⟩, rev, hrev, rfl⟩, title, -, rfl⟩ := hbuild
  exact ⟨trivial, ChangeRecord.build_id.1 hid, Fields.build_revision hrev⟩

theorem Note.readsIdentity : type.ReadsIdentity Fits := by
  intro o ho e he
  have hbuild := Reader.build_of_ofJson_record he
  simp only [Fields.build_seq_eq_ok, Fields.build_map_eq_ok, Fields.build_optional] at hbuild
  obtain ⟨_, ⟨_, ⟨_, ⟨_, ⟨id, hid, rfl⟩, rev, hrev, rfl⟩, body, -, rfl⟩, tags, -, rfl⟩, info, hinfo, rfl⟩ := hbuild
  refine ⟨?_, ChangeRecord.build_id.1 hid, Fields.build_revision hrev⟩
  rcases Fields.build_defaulted.1 hinfo with ⟨-, rfl⟩ | ⟨v, hv, hread⟩
  · trivial
  · have hcanonical : v.Canonical := Json.CanonicalMembers.of_mem ho.2 (Table.mem_of_get?_eq_some hv)
    obtain rfl := Reader.eq_of_json_ofJson hcanonical hread
    exact hcanonical

theorem ServerItem.readsIdentity : type.ReadsIdentity Fits := by
  intro o ho e he
  have hbuild := Reader.build_of_ofJson_record he
  simp only [Fields.build_seq_eq_ok, Fields.build_map_eq_ok] at hbuild
  obtain ⟨_, ⟨_, ⟨id, hid, rfl⟩, rev, hrev, rfl⟩, port, hport, rfl⟩ := hbuild
  refine ⟨?_, ChangeRecord.build_id.1 hid, Fields.build_revision hrev⟩
  rintro n rfl
  rcases Fields.build_nullable.1 hport with ⟨-, hnone⟩ | ⟨v, m, -, -, hv, hsome⟩
  · exact nomatch hnone
  · obtain rfl := Option.some.inj hsome
    exact Reader.le_of_natural hv

/-- Entities in a wrapper are read off as without it. -/
theorem EntityType.ReadsIdentity.wrap {α ε : Type} {T : EntityType α} {Valid : α → Prop} (hT : T.ReadsIdentity Valid)
    {U : EntityType ε} {Wrapped : ε → Prop} (wrap : α → ε) (hwrapped : ∀ a, Valid a → Wrapped (wrap a))
    (hid : ∀ a, U.id (wrap a) = T.id a) (hrevision : ∀ a, U.revision (wrap a) = T.revision a)
    (hreader : U.reader = fun o d => (T.reader o d).map wrap) : U.ReadsIdentity Wrapped := by
  intro o ho e he
  rw [hreader] at he
  obtain ⟨a, ha, rfl⟩ := Outcome.map_eq_ok.1 he
  have hread := hT o ho a ha
  exact ⟨hwrapped a hread.valid, by rw [hid, hread.get?_id], by rw [hrevision, hread.get?_revision]⟩

/-- **Every stock type reads its entities off their names and revisions.** -/
theorem EntityKind.readsIdentity (k : EntityKind) : k.type.ReadsIdentity fun e => e.kind = k ∧ e.Fits := by
  cases k with
  | test => exact TestEntity.readsIdentity.wrap .test (fun _ h => ⟨rfl, h⟩) (fun _ => rfl) (fun _ => rfl) rfl
  | other => exact OtherEntity.readsIdentity.wrap .other (fun _ h => ⟨rfl, h⟩) (fun _ => rfl) (fun _ => rfl) rfl
  | note => exact Note.readsIdentity.wrap .note (fun _ h => ⟨rfl, h⟩) (fun _ => rfl) (fun _ => rfl) rfl
  | custom => exact ServerItem.readsIdentity.wrap .custom (fun _ h => ⟨rfl, h⟩) (fun _ => rfl) (fun _ => rfl) rfl

/-- The calls that follow for an entity are for a document at a revision. -/
structure Client.Addresses {α : Type} (c : Client) (T : EntityType α) (e : α) (db : DatabaseName) (id rev : String)
    (routes : Routes) : Prop where
  delete : ∀ batch, ∃ r, (c.deleteEntity T e batch routes).1.request? = some r ∧ r.method = .delete
    ∧ r.place = c.place [db.text, id] ∧ r.option? "rev" = some rev
  /-- The class may stand where the server has the name or the revision. -/
  update : ∃ r, ∃ body : Object, (c.update T e routes).1.request? = some r ∧ r.method = .put
    ∧ r.place = c.place [db.text, id] ∧ r.body = some (.obj body)
    ∧ (c.settings.classField ≠ "_id" → body.get? "_id" = some (.str id))
    ∧ (c.settings.classField ≠ "_rev" → body.get? "_rev" = some (.str rev))

namespace Envelope

/-- Where the domain has a name of its own for a member of the server's, the document has nothing else under it, or the
class. -/
def Undisputed (classField own stored : String) (wire : Object) : Prop :=
  classField = own ∨ ∀ v, wire.get? own = some v → v = (wire.get? stored).getD .null

theorem undisputed_of_absent {classField own stored : String} {wire : Object} (h : wire.get? own = none) :
    Undisputed classField own stored wire :=
  .inr fun _ hv => absurd (hv.symm.trans h) (Option.some_ne_none _)

/-- **What comes in for a member of the server's is the member,** exactly if it is undisputed. -/
theorem undisputed_iff {classField own stored : String} {wire : Object} (hs : wire.Sorted)
    (h : (own = "id" ∧ stored = "_id") ∨ (own = "revision" ∧ stored = "_rev"))
    (hpresent : (wire.get? stored).filter isPresent = wire.get? stored) :
    ((domain (some classField) wire).get? own).filter isPresent = wire.get? stored
      ↔ Undisputed classField own stored wire := by
  rw [get?_domain_renamed hs h, Undisputed]
  by_cases hc : classField = own
  · simp [hc, hpresent]
  · rw [if_neg fun heq => hc (Option.some.inj heq).symm]
    cases hown : wire.get? own with
    | none => simp [hpresent]
    | some v =>
      simp only [Option.some_or, hc, false_or, Option.some.injEq, forall_eq']
      cases hstored : wire.get? stored with
      | none => cases v <;> simp [isPresent, Json.isNull]
      | some w =>
        rw [hstored] at hpresent
        refine ⟨fun heq => (Option.filter_eq_some_iff.1 heq).1 |> Option.some.inj, fun heq => ?_⟩
        rw [heq]
        exact hpresent

section Faithful

variable {α : Type} {T : EntityType α} {fields : List String} {Valid : α → Prop}

/-- **The calls for an entity are for the document of its name**, at its revision. -/
theorem addresses_of_faithful (hT : T.Faithful fields Valid) {c : Client} {routes after : Routes} {route : Route}
    (hresolve : routes.resolve T.name = .ok (route, after)) {e : α} (hvalid : Valid e)
    (hid : (T.id e).isBlank = false) {rev : Revision} (hrev : T.revision e = some rev) (hblank : rev.isBlank = false)
    (hlocated : (Url.parse? (c.locate [route.database.text, (T.id e).text])).isSome) :
    c.Addresses T e route.database (T.id e).text rev.text routes := by
  constructor
  case delete =>
    intro batch
    obtain ⟨r, hsend, hmethod, -, hplace, hoption⟩ := Client.call_eq_send hlocated .delete
      (("rev", rev.text) :: if batch then [("batch", "ok")] else []) none (writeReply [200, 202])
    refine ⟨r, ?_, hmethod, hplace, hoption _ _ ?_⟩
    · rw [Client.deleteEntity_eq_delete hresolve hid hrev hblank, Client.deleteDocument, hsend]
      rfl
    · cases batch <;> rfl
  case update =>
    obtain ⟨r, hsend, hmethod, hbody, hplace, -⟩ := Client.call_eq_send hlocated .put ({} : WriteOptions).query
      (some (.obj (wrapped c.style route.className (T.members e)))) fun reply => do
        Written.ofReply T e (← writeReply [201, 202] reply)
    refine ⟨r, wrapped c.style route.className (T.members e), ?_, hmethod, hplace, hbody, fun hc => ?_, fun hc => ?_⟩
    · rw [Client.update_eq_put hT hvalid hresolve hid hrev hblank, Client.putDocument, hsend]
      rfl
    · rw [get?_id_wrapped hT hvalid hc, hT.get?_id e hvalid]
    · have hrevision := hT.get?_revision e hvalid
      rw [hrev] at hrevision
      rw [get?_rev_wrapped hT hvalid hc]
      exact hrevision

end Faithful

/-- **A decoded entity stays with its document** exactly if the document has nothing of its own where the domain has the
name and the revision; and then the calls that follow for the entity are for the document at the revision that was
read. That goes for every faithful type that reads its entities off their names and revisions, as the stock types do,
and for documents without the server's own members, which is how a client reads them. -/
theorem identity_of_decode (classField : String) (wire : Object) (hwire : (Json.obj wire).Canonical) (id : String)
    (rev : Option String) (hid : wire.get? "_id" = some (.str id)) (hrev : wire.get? "_rev" = rev.map .str) :
    (∀ k : EntityKind, k.type.Faithful k.fields (fun e => e.kind = k ∧ e.Fits)
      ∧ k.type.ReadsIdentity fun e => e.kind = k ∧ e.Fits)
    ∧ (∀ {α : Type} (r : Reader α), decode r classField (split wire).2 = decode r classField wire)
    ∧ ∀ {α : Type} {T : EntityType α} {fields : List String} {Valid : α → Prop}, T.Faithful fields Valid →
      T.ReadsIdentity Valid → ∀ e, decode T.reader classField wire = .ok e →
        ((T.id e).text = id ↔ Undisputed classField "id" "_id" wire)
        ∧ ((T.revision e).map Revision.text = rev ↔ Undisputed classField "revision" "_rev" wire)
        ∧ (Undisputed classField "id" "_id" wire → Undisputed classField "revision" "_rev" wire →
          ∀ (c : Client) (routes after : Routes) (route : Route) (r : String),
            routes.resolve T.name = .ok (route, after) → (Url.parse? (c.locate [route.database.text, id])).isSome →
            DocId.isBlank ⟨id⟩ = false → rev = some r → Revision.isBlank ⟨r⟩ = false →
            c.Addresses T e route.database id r routes) := by
  refine ⟨fun k => ⟨k.faithful, k.readsIdentity⟩, fun r => decode_split r classField wire, ?_⟩
  intro α T fields Valid hT hreads e he
  have hread : T.ReadOff Valid (domain (some classField) wire) e :=
    hreads _ ⟨sorted_rename _ _, canonical_rename hwire.2⟩ e (Outcome.ofRead_eq_ok.1 he)
  have hids : (T.id e).text = id ↔ Undisputed classField "id" "_id" wire := by
    rw [← undisputed_iff hwire.1 (.inl ⟨rfl, rfl⟩) (by rw [hid]; rfl), hread.get?_id, hid]
    simp [isPresent, Json.isNull]
  have hrevs : (T.revision e).map Revision.text = rev ↔ Undisputed classField "revision" "_rev" wire := by
    rw [← undisputed_iff hwire.1 (.inr ⟨rfl, rfl⟩) (by rw [hrev]; cases rev <;> rfl), hread.get?_revision, hrev]
    cases T.revision e <;> cases rev <;> simp
  refine ⟨hids, hrevs, fun hidKept hrevKept c routes after route r hresolve hlocated hblank hr hrBlank => ?_⟩
  obtain rfl : (T.id e).text = id := hids.2 hidKept
  obtain ⟨read, hrevision, rfl⟩ := Option.map_eq_some_iff.1 ((hrevs.2 hrevKept).trans hr)
  exact addresses_of_faithful hT hresolve hread.valid hblank hrevision hrBlank hlocated

/-- A document with a member that its type does not know, and nothing where the domain has the name and the
revision. -/
def plainDocument : Object := [("_id", .str "a"), ("_rev", .str "1-x"), ("label", .str "l"), ("other", .null)]

/-- The entity of the document is written back to it and deleted from it. -/
theorem identity_of_plainDocument : ∃ e, decode EntityKind.test.type.reader "class__" plainDocument = .ok e
    ∧ (EntityKind.test.type.id e).text = "a"
    ∧ Client.sample.Addresses EntityKind.test.type e ⟨"db"⟩ "a" "1-x" Routes.sample := by
  have hsorted : plainDocument.Sorted := by
    unfold Table.Sorted
    decide +kernel
  have hwire : (Json.obj plainDocument).Canonical := ⟨hsorted, trivial, trivial, trivial, trivial, trivial⟩
  have hdecode : decode EntityKind.test.type.reader "class__" plainDocument
      = .ok (.test ⟨⟨"a"⟩, some ⟨"1-x"⟩, "l", 0⟩) := by decide +kernel
  have hid : Undisputed "class__" "id" "_id" plainDocument := undisputed_of_absent (by decide +kernel)
  have hrev : Undisputed "class__" "revision" "_rev" plainDocument := undisputed_of_absent (by decide +kernel)
  obtain ⟨hstock, -, hidentity⟩ := identity_of_decode "class__" plainDocument hwire "a" (some "1-x")
    (by decide +kernel) (by decide +kernel)
  obtain ⟨hfaithful, hreads⟩ := hstock .test
  obtain ⟨hids, -, haddresses⟩ := hidentity hfaithful hreads _ hdecode
  exact ⟨_, hdecode, hids.2 hid, haddresses hid hrev Client.sample Routes.sample Routes.sample ⟨⟨"db"⟩, ⟨"Test"⟩⟩ "1-x"
    (by decide +kernel) (by decide +kernel) (by decide +kernel) rfl (by decide +kernel)⟩

/-- A document with a name of the domain's besides its own. -/
def disputed : Object := [("_id", .str "a"), ("_rev", .str "1-x"), ("id", .str "b"), ("label", .str "l")]

/-- A document with a name of the domain's is decoded as an entity of another document, and it is the other that is
deleted for the entity. -/
theorem decode_disputed : ∃ e, decode EntityKind.test.type.reader "class__" disputed = .ok e
    ∧ EntityKind.test.type.id e = ⟨"b"⟩ ∧ EntityKind.test.type.revision e = some ⟨"1-x"⟩
    ∧ (Client.sample.deleteEntity EntityKind.test.type e false Routes.sample).1.request?.map Request.target
      = some "/db/b?rev=1-x" :=
  ⟨.test ⟨⟨"b"⟩, some ⟨"1-x"⟩, "l", 0⟩, by decide +kernel, rfl, rfl, by decide +kernel⟩

end Envelope
end DocClient
