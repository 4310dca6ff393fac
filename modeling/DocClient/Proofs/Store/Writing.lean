/-
# The documents that a client writes

A client writes the stored form of an entity, alone or in a batch (`Client.Sends`). What is asked of the stored form
(`Envelope.Sound`) does not come of every setting that a client takes. The class goes in last, over whatever stands
under the class field, and so it depends on whether that is a field of the entity:

| class field | what the class stands in place of |
| --- | --- |
| `_id` | the name |
| `_rev` | the revision, also where there is none |
| a field other than `id` and `revision` | what the entity has there |
| any other | nothing |

So the documents are sound for every entity of a type exactly where the type leaves the class field free
(`Client.sound_iff_freeField`).
-/

import DocClient.Proofs.Envelope.RoundTrip
import DocClient.Proofs.Store.Checks
import DocClient.Store.Batch

namespace DocClient

namespace Envelope

variable {α : Type}

/-- **A sound stored form of an entity** has its name, its revision if there is one, its class, and every other member
of it but for the nulls that are left out. -/
structure Sound (style : Style) (className : ClassName) (T : EntityType α) (e : α) (doc : Object) : Prop where
  get?_id : doc.get? "_id" = some (.str (T.id e).text)
  get?_rev : doc.get? "_rev" = (T.revision e).map fun r => .str r.text
  get?_class : doc.get? style.classField = some (.str className.text)
  get?_member : ∀ name v, (T.members e).get? name = some v → name ≠ "id" → name ≠ "revision" →
    doc.get? name = (some v).filter (goesOut style.nullFields)

/-- **A class field that is free** is one that makes no stored form unsound. -/
theorem sound_wrapped {T : EntityType α} {fields : List String} {Valid : α → Prop} (hT : T.Faithful fields Valid)
    {e : α} (he : Valid e) {style : Style} (hfree : FreeField fields style.classField) (className : ClassName) :
    Sound style className T e (wrapped style className (T.members e)) := by
  refine ⟨?_, ?_, ?_, fun name v hv hid hrev => ?_⟩
  · rw [get?_id_wrapped hT he hfree.1, hT.get?_id e he]
  · rw [get?_rev_wrapped hT he hfree.2.1]
    exact hT.get?_revision e he
  · rw [wrapped, Table.get?_insert, if_pos rfl]
  · have hname : name ∈ fields := hT.named e he _ (Table.mem_of_get?_eq_some hv)
    have hc : name ≠ style.classField := by
      rintro rfl
      exact (hfree.2.2 hname).elim hid hrev
    rw [get?_field_wrapped hT he hname hid hrev hc, hv]

end Envelope

namespace EntityKind

/-- An entity without revision that has no null and nowhere the name of a class. -/
def probe (className : ClassName) : EntityKind → StockEntity
  | .test => .test { id := ⟨className.text ++ "a"⟩, label := className.text ++ "a" }
  | .other => .other { id := ⟨className.text ++ "a"⟩, title := className.text ++ "a" }
  | .note => .note { id := ⟨className.text ++ "a"⟩, body := some (className.text ++ "a"), info := .bool true }
  | .custom => .custom { id := ⟨className.text ++ "a"⟩, port := some 1 }

theorem fits_probe (k : EntityKind) (className : ClassName) :
    (k.probe className).kind = k ∧ (k.probe className).Fits := by
  cases k with
  | test =>
    have hzero : Reader.minInt64 ≤ 0 ∧ 0 ≤ Reader.maxInt64 := by decide
    exact ⟨rfl, hzero⟩
  | other => exact ⟨rfl, trivial⟩
  | note => exact ⟨rfl, trivial⟩
  | custom =>
    refine ⟨rfl, fun port hport => ?_⟩
    obtain rfl := Option.some.inj hport
    decide

theorem id_probe (k : EntityKind) (className : ClassName) :
    (k.type.id (k.probe className)).text = className.text ++ "a" := by
  cases k <;> rfl

theorem revision_probe (k : EntityKind) (className : ClassName) : k.type.revision (k.probe className) = none := by
  cases k <;> rfl

theorem append_ne (s : String) : s ++ "a" ≠ s := by
  intro h
  have hlength := congrArg String.length h
  rw [String.length_append] at hlength
  exact absurd hlength (by simp)

/-- Under every field but those for the name and the revision the probe has something else than the class. -/
theorem get?_probe (k : EntityKind) (className : ClassName) {name : String} (h : name ∈ k.fields) (hid : name ≠ "id")
    (hrev : name ≠ "revision") :
    ∃ v, (k.type.members (k.probe className)).get? name = some v ∧ v ≠ .null ∧ v ≠ .str className.text := by
  have hother : Json.str (className.text ++ "a") ≠ .str className.text := fun heq =>
    append_ne className.text (Json.str.inj heq)
  have hmembers : ∀ {entries : List (String × Json)}, (k.type.members (k.probe className)) = Table.ofList entries →
      (∃ v, entries.reverse.lookup name = some v ∧ v ≠ .null ∧ v ≠ .str className.text) →
      ∃ v, (k.type.members (k.probe className)).get? name = some v ∧ v ≠ .null ∧ v ≠ .str className.text := by
    intro entries heq hv
    rwa [heq, Table.get?_ofList]
  cases k with
  | test =>
    simp only [fields, TestEntity.fields, List.mem_cons, List.not_mem_nil, or_false, hid, hrev, false_or] at h
    refine hmembers rfl ?_
    rcases h with rfl | rfl
    · exact ⟨_, rfl, by simp, hother⟩
    · exact ⟨_, rfl, by simp [Json.ofInt], by simp [Json.ofInt]⟩
  | other =>
    simp only [fields, OtherEntity.fields, List.mem_cons, List.not_mem_nil, or_false, hid, hrev, false_or] at h
    subst h
    exact hmembers rfl ⟨_, rfl, by simp, hother⟩
  | note =>
    simp only [fields, Note.fields, List.mem_cons, List.not_mem_nil, or_false, hid, hrev, false_or] at h
    refine hmembers rfl ?_
    rcases h with rfl | rfl | rfl
    · exact ⟨_, rfl, by simp [Json.ofText?], hother⟩
    · exact ⟨_, rfl, by simp [Json.ofStrings], by simp [Json.ofStrings]⟩
    · exact ⟨_, rfl, by simp, by simp⟩
  | custom =>
    simp only [fields, ServerItem.fields, List.mem_cons, List.not_mem_nil, or_false, hid, hrev, false_or] at h
    subst h
    exact hmembers rfl ⟨_, rfl, by simp [Json.ofNat], by simp [Json.ofNat]⟩

end EntityKind

/-- **A class field that is not free** leaves no sound stored form for a probe. -/
theorem Envelope.not_sound_probe {k : EntityKind} {style : Style} (h : ¬FreeField k.fields style.classField)
    {className : ClassName} {doc : Object} : ¬Sound style className k.type (k.probe className) doc := by
  intro hsound
  have hclass := hsound.get?_class
  have hcases : style.classField = "_id" ∨ style.classField = "_rev"
      ∨ (style.classField ∈ k.fields ∧ style.classField ≠ "id" ∧ style.classField ≠ "revision") := by
    simpa only [FreeField, not_and_or, not_not, Classical.not_imp, not_or] using h
  rcases hcases with hid | hrev | ⟨hfield, hid, hrev⟩
  · rw [hid, hsound.get?_id, k.id_probe] at hclass
    exact EntityKind.append_ne _ (Json.str.inj (Option.some.inj hclass))
  · rw [hrev, hsound.get?_rev, k.revision_probe] at hclass
    exact nomatch hclass
  · obtain ⟨v, hv, hnull, hne⟩ := k.get?_probe className hfield hid hrev
    have hgoes : goesOut style.nullFields v = true := by
      cases v with
      | null => exact absurd rfl hnull
      | _ => rfl
    rw [hsound.get?_member _ v hv hid hrev, Option.filter_some, if_pos hgoes] at hclass
    exact hne (Option.some.inj hclass)

/-- The documents of a batch. -/
def Request.documents (r : Request) : List Json :=
  match (r.body.bind Json.obj?).bind (·.get? "docs") with
  | some (.arr docs) => docs
  | _ => []

/-- A call that writes an entity. -/
inductive DocumentCall.Writes {α : Type} (e : α) : DocumentCall α → Prop
  | insert : Writes e (.insert e)
  | update : Writes e (.update e)
  | upsert : Writes e (.upsert e)
  | upsertWith (options : WriteOptions) : Writes e (.upsertWith e options)

namespace Client

variable {α : Type} {c : Client} {T : EntityType α} {routes after : Routes} {route : Route} {e : α} {doc : Object}

/-- A client sends a document for an entity, alone or in its place in a batch. -/
inductive Sends (c : Client) (T : EntityType α) (routes : Routes) (e : α) (doc : Object) : Prop
  | single {call : DocumentCall α} {r : Request} (writes : call.Writes e) (sent : call.request? c T routes = some r)
    (body : r.body = some (.obj doc)) : Sends c T routes e doc
  | batch {upserts : List α} {deletions : List Deletion} {r : Request} {i : Nat}
    (sent : (c.writeBatch T upserts deletions routes).1.request? = some r) (place : upserts[i]? = some e)
    (document : r.documents[i]? = some (.obj doc)) : Sends c T routes e doc
  | batchIn {db : DatabaseName} {upserts : List α} {deletions : List Deletion} {r : Request} {i : Nat}
    (sent : (c.writeBatchIn T db upserts deletions routes).1.request? = some r) (place : upserts[i]? = some e)
    (document : r.documents[i]? = some (.obj doc)) : Sends c T routes e doc

/-- What a write has to send is for the document of the entity, and is its stored form. -/
theorem errand?_of_writes (hresolve : routes.resolve T.name = .ok (route, after)) {call : DocumentCall α} {d : Errand}
    (hwrites : call.Writes e) (hd : call.errand? c T routes = some d) :
    d.path = [route.database.text, (T.id e).text]
      ∧ ∃ body, d.body = some (.obj body) ∧ Envelope.encode c.style route.className (T.toJson e) = .ok body := by
  have hwrite : ∃ options, DocumentCall.write? c T routes e options = some d := by
    cases hwrites with
    | insert => exact ⟨_, (Option.ite_none_left_eq_some.1 hd).2⟩
    | update => exact ⟨_, (Option.ite_none_left_eq_some.1 hd).2⟩
    | upsert => exact ⟨_, hd⟩
    | upsertWith options => exact ⟨options, hd⟩
  obtain ⟨options, hwrite⟩ := hwrite
  obtain ⟨-, found, body, hfound, hencode, rfl⟩ := DocumentCall.write?_eq_some.1 hwrite
  rw [DocumentCall.route?, hresolve] at hfound
  obtain rfl := Option.some.inj hfound
  exact ⟨rfl, body, rfl, hencode⟩

/-- What a batch has to send is the stored forms of its entities, in their places, and its deletions. -/
theorem exists_docs_of_writeBatchIn (hresolve : routes.resolve T.name = .ok (route, after)) {db : DatabaseName}
    {upserts : List α} {deletions : List Deletion} {r : Request}
    (h : (c.writeBatchIn T db upserts deletions routes).1.request? = some r) :
    ∃ docs, (upserts.mapM fun e => Envelope.encode c.style route.className (T.toJson e)) = .ok docs
      ∧ r.documents = (docs ++ deletions.map Deletion.toObject).map .obj := by
  obtain ⟨-, -, route', after', docs, hresolve', hdocs, hrequest⟩ := request?_writeBatchIn.1 h
  obtain ⟨rfl, -⟩ := Prod.mk.inj (Except.ok.inj (hresolve'.symm.trans hresolve))
  obtain ⟨-, hbody, -⟩ := sent_of_request? hrequest
  refine ⟨docs, hdocs, ?_⟩
  simp [Request.documents, hbody, batchBody, Json.ofMembers, Json.obj?, Table.get?_ofList, List.lookup_cons]

/-- What a batch sends for an entity in its place is its stored form. -/
theorem encode_of_documents (hresolve : routes.resolve T.name = .ok (route, after)) {db : DatabaseName}
    {upserts : List α} {deletions : List Deletion} {r : Request}
    (h : (c.writeBatchIn T db upserts deletions routes).1.request? = some r) {i : Nat} (he : upserts[i]? = some e)
    (hdoc : r.documents[i]? = some (.obj doc)) :
    Envelope.encode c.style route.className (T.toJson e) = .ok doc := by
  obtain ⟨docs, hdocs, hdocuments⟩ := exists_docs_of_writeBatchIn hresolve h
  obtain ⟨body, hbody, hi⟩ := Outcome.getElem?_of_mapM hdocs he
  obtain ⟨hlt, -⟩ := List.getElem?_eq_some_iff.1 hi
  rw [hdocuments, List.getElem?_map, List.getElem?_append_left hlt, hi] at hdoc
  obtain rfl := Json.obj.inj (Option.some.inj hdoc)
  exact hbody

/-- **What a client sends for an entity is its stored form.** -/
theorem Sends.encode_eq (hresolve : routes.resolve T.name = .ok (route, after)) (h : c.Sends T routes e doc) :
    Envelope.encode c.style route.className (T.toJson e) = .ok doc := by
  cases h with
  | single hwrites hsent hbody =>
    rw [DocumentCall.request?_eq] at hsent
    obtain ⟨d, hd, hr⟩ := Option.bind_eq_some_iff.1 hsent
    obtain ⟨-, body, hdbody, hencode⟩ := errand?_of_writes hresolve hwrites hd
    rw [(request?_eq_some hr).2.1, hdbody] at hbody
    obtain rfl := Json.obj.inj (Option.some.inj hbody)
    exact hencode
  | batch hsent hplace hdoc =>
    rw [writeBatch, Routes.run_require hresolve] at hsent
    exact encode_of_documents (Routes.resolve_after hresolve) hsent hplace hdoc
  | batchIn hsent hplace hdoc => exact encode_of_documents hresolve hsent hplace hdoc

/-- **Sound stored forms.** The documents that a client sends for the entities of a type are sound where the type leaves
the class field free, and the calls for one entity are for the document of its name. Where the type does not leave it
free there is an entity for which no document that the client sends is sound, and the client does send one. -/
theorem sound_of_freeField (c : Client) (k : EntityKind) {routes after : Routes} {route : Route}
    (hresolve : routes.resolve k.type.name = .ok (route, after)) :
    (Envelope.FreeField k.fields c.settings.classField → ∀ e, e.kind = k → e.Fits → ∀ doc, c.Sends k.type routes e doc →
        Envelope.Sound c.style route.className k.type e doc)
      ∧ (∀ e call r, DocumentCall.Writes e call → call.request? c k.type routes = some r →
        r.place = c.place [route.database.text, (k.type.id e).text])
      ∧ (¬Envelope.FreeField k.fields c.settings.classField → ∃ e, e.kind = k ∧ e.Fits
        ∧ (∀ doc, c.Sends k.type routes e doc → ¬Envelope.Sound c.style route.className k.type e doc)
        ∧ ((Url.parse? (c.locate [route.database.text, (k.type.id e).text])).isSome →
          ∃ doc, c.Sends k.type routes e doc)) := by
  refine ⟨fun hfree e hkind hfits doc hsends => ?_, fun e call r hwrites hsent => ?_, fun hfree => ?_⟩
  · have hencode := hsends.encode_eq hresolve
    rw [Envelope.encode_eq k.faithful ⟨hkind, hfits⟩] at hencode
    obtain rfl := Except.ok.inj hencode
    exact Envelope.sound_wrapped k.faithful ⟨hkind, hfits⟩ hfree route.className
  · rw [DocumentCall.request?_eq] at hsent
    obtain ⟨d, hd, hr⟩ := Option.bind_eq_some_iff.1 hsent
    obtain ⟨hpath, -⟩ := errand?_of_writes hresolve hwrites hd
    rw [(request?_eq_some hr).2.2.1, hpath]
  · obtain ⟨hkind, hfits⟩ := k.fits_probe route.className
    refine ⟨k.probe route.className, hkind, hfits, fun doc _ => Envelope.not_sound_probe hfree, fun hlocated => ?_⟩
    have hblank : (k.type.id (k.probe route.className)).isBlank = false := by
      rw [DocId.isBlank, k.id_probe, Text.isBlank, String.toList_append, List.all_append]
      simp [Text.isBlankChar]
    have hencode := Envelope.encode_eq k.faithful ⟨hkind, hfits⟩ c.style route.className
    obtain ⟨d, hwrite, hpath, hbody⟩ : ∃ d, DocumentCall.write? c k.type routes (k.probe route.className) {} = some d
        ∧ d.path = [route.database.text, (k.type.id (k.probe route.className)).text]
        ∧ d.body = some (.obj (Envelope.wrapped c.style route.className (k.type.members (k.probe route.className)))) :=
      ⟨_, DocumentCall.write?_eq_some.2 ⟨hblank, route, _, by rw [DocumentCall.route?, hresolve]; rfl, hencode, rfl⟩,
        rfl, rfl⟩
    have hrequest : (DocumentCall.upsert (k.probe route.className)).request? c k.type routes = d.request? c := by
      rw [DocumentCall.request?_eq, DocumentCall.errand?, hwrite, Option.bind_some]
    have hsent : (d.request? c).isSome := by
      rw [Errand.request?, request?, Option.isSome_map, hpath]
      exact hlocated
    obtain ⟨r, hr⟩ := Option.isSome_iff_exists.1 hsent
    exact ⟨_, .single .upsert (hrequest.trans hr) ((request?_eq_some hr).2.1.trans hbody)⟩

/-- A labelled entity as it was read. -/
def labelled : StockEntity := .test { id := ⟨"a"⟩, revision := some ⟨"1-x"⟩, label := "l" }

/-- The stored form of the labelled entity is sound. -/
theorem sound_of_freeField_labelled : ∃ doc, sample.Sends EntityKind.test.type .sample labelled doc
    ∧ doc = [("_id", .str "a"), ("_rev", .str "1-x"), ("class__", .str "Test"), ("count", .ofInt 0),
      ("label", .str "l")]
    ∧ Envelope.Sound sample.style ⟨"Test"⟩ EntityKind.test.type labelled doc := by
  have hresolve : Routes.sample.resolve EntityKind.test.type.name = .ok (⟨⟨"db"⟩, ⟨"Test"⟩⟩, .sample) := by
    decide +kernel
  have hbody : ((DocumentCall.update labelled).request? sample EntityKind.test.type .sample).bind Request.body
      = some (.obj [("_id", .str "a"), ("_rev", .str "1-x"), ("class__", .str "Test"), ("count", .ofInt 0),
        ("label", .str "l")]) := by decide +kernel
  obtain ⟨r, hr, hbody⟩ := Option.bind_eq_some_iff.1 hbody
  have hsends : sample.Sends EntityKind.test.type .sample labelled _ := .single .update hr hbody
  have hfree : Envelope.FreeField EntityKind.test.fields sample.settings.classField := by
    refine ⟨by decide, by decide, fun hfield => absurd hfield (by decide)⟩
  have hfits : labelled.Fits := by
    have hzero : Reader.minInt64 ≤ 0 ∧ 0 ≤ Reader.maxInt64 := by decide
    exact hzero
  exact ⟨_, hsends, rfl, (sound_of_freeField sample .test hresolve).1 hfree labelled rfl hfits _ hsends⟩

/-- A client whose class field is the one of the name. -/
def classOverName : Client := ⟨{ classField := "_id" }, by decide⟩

/-- **The class goes in place of the name:** the document that is sent for `a` is called after the class. -/
theorem class_over_name :
    ((DocumentCall.update labelled).request? classOverName EntityKind.test.type .sample).map
        (fun r => (r.target, r.body))
      = some ("/db/a",
        some (.obj [("_id", .str "Test"), ("_rev", .str "1-x"), ("count", .ofInt 0), ("label", .str "l")])) := by
  decide +kernel

end Client
end DocClient
