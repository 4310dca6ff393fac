/-
# An entity as a document on the server

Clients that share an entity type and a configuration agree on what a document says (`Site`): which entity it is, at
which revision. `Stores` collects what is to be known of such a document, and three things keep it or use it:

| | |
| --- | --- |
| encoding an entity | gives a document that stores it (`Site.stores_encode`) |
| putting a revision on a document | stores the entity at that revision (`Stores.atRevision`) |
| reading a document | gives the entity (`Stores.decode_split`) |

Reading a document also reads the members that the server looks after. The class field may have the name of one of
these; most of them are not texts (`nonText`), and a document with the class there cannot be read
(`Stores.system_unreadable`).
-/

import DocClient.Proofs.Envelope.RoundTrip
import DocClient.Store.Write

namespace DocClient

/-- Clients of one configuration that work on one document, as entities of one type. -/
structure Site (α : Type) where
  client : Client
  type : EntityType α
  route : Route
  id : DocId
  fields : List String
  /-- The values that entities have. -/
  Valid : α → Prop
  faithful : type.Faithful fields Valid
  named : id.isBlank = false
  /-- The class field is no name of the server's for a document, nor of a field. -/
  free : client.settings.classField ≠ "_id" ∧ client.settings.classField ≠ "_rev"
    ∧ client.settings.classField ∉ fields
  /-- Requests can be made for the document. -/
  located : (Url.parse? (client.locate [route.database.text, id.text])).isSome

namespace Site

/-- The clients that work on one document as stock entities of a kind. -/
def ofKind (client : Client) (kind : EntityKind) (route : Route) (id : DocId) (named : id.isBlank = false)
    (free : client.settings.classField ≠ "_id" ∧ client.settings.classField ≠ "_rev"
      ∧ client.settings.classField ∉ kind.fields)
    (located : (Url.parse? (client.locate [route.database.text, id.text])).isSome) : Site StockEntity where
  client
  type := kind.type
  route
  id
  fields := kind.fields
  Valid e := e.kind = kind ∧ e.Fits
  faithful := kind.faithful
  named
  free
  located

variable {α : Type} (S : Site α)

/-- The class field of the clients. -/
def classField : String := S.client.settings.classField

theorem freeField : Envelope.FreeField S.fields S.classField :=
  ⟨S.free.1, S.free.2.1, fun h => absurd h S.free.2.2⟩

/-- A document stores an entity. -/
structure Stores (doc : Object) (e : α) : Prop where
  valid : S.Valid e
  id_eq : S.type.id e = S.id
  carries : Envelope.Carries S.classField S.fields doc (S.type.members e)
  canonical : Json.CanonicalMembers doc
  get?_class : doc.get? S.classField = some (.str S.route.className.text)
  /-- Nothing stands under a name of the server's but the name, the revision and perhaps the class. -/
  get?_system : ∀ name, Envelope.isSystem name → name ≠ "_id" → name ≠ "_rev" → name ≠ S.classField →
    doc.get? name = none

variable {S} {doc : Object} {e : α}

/-- The revision of a stored entity is under `_rev`, and nothing is there where it has none. -/
theorem Stores.get?_rev (h : S.Stores doc e) :
    doc.get? "_rev" = (S.type.revision e).map fun r => .str r.text := by
  rw [h.carries.get?_rev]
  exact S.faithful.get?_revision e h.valid

/-- A stored entity is decoded. -/
theorem Stores.decode (h : S.Stores doc e) : Envelope.decode S.type.reader S.classField doc = .ok e :=
  Envelope.decode_of_carries S.faithful h.valid S.freeField h.carries

/-- **A document with a revision put on it stores the entity at that revision.** -/
theorem Stores.atRevision (h : S.Stores doc e) (rev : Revision) :
    S.Stores (doc.insert "_rev" (.str rev.text)) (S.type.withRevision e rev) := by
  have hT := S.faithful
  have hvalid := hT.valid_withRevision e h.valid rev
  have hplain : ∀ name ∈ S.fields, name ≠ "_rev" := by
    rintro name hn rfl
    exact absurd (hT.plain _ hn) (by decide)
  constructor
  case valid => exact hvalid
  case id_eq => rw [hT.id_withRevision, h.id_eq]
  case carries =>
    constructor
    case sorted => exact Table.sorted_insert h.carries.sorted
    case get?_id =>
      rw [Table.get?_insert, if_neg (by decide), h.carries.get?_id, hT.get?_withRevision e h.valid rev _ (by decide)]
    case get?_rev =>
      have hrevision := hT.get?_revision _ hvalid
      rw [hT.revision_withRevision] at hrevision
      rw [Table.get?_insert, if_pos rfl]
      exact hrevision.symm
    case get?_domain =>
      intro name hn hc
      have hne : name ≠ "_rev" := by
        rcases hn with rfl | rfl <;> decide
      rw [Table.get?_insert, if_neg hne, h.carries.get?_domain name hn hc]
    case get?_other =>
      intro name hn hid hrev
      rw [Table.get?_insert, if_neg (hplain name hn), hT.get?_withRevision e h.valid rev name hrev]
      exact h.carries.get?_other name hn hid hrev
  case canonical => exact h.canonical.insert h.carries.sorted (v := .str rev.text) trivial "_rev"
  case get?_class => rw [Table.get?_insert, if_neg S.freeField.2.1, h.get?_class]
  case get?_system =>
    intro name hs hid hrev hc
    rw [Table.get?_insert, if_neg hrev, h.get?_system name hs hid hrev hc]

/-- **What an entity is encoded as stores it.** -/
theorem stores_wrapped (hvalid : S.Valid e) (hid : S.type.id e = S.id) :
    S.Stores (Envelope.wrapped S.client.style S.route.className (S.type.members e)) e where
  valid := hvalid
  id_eq := hid
  carries :=
    have hfree : Envelope.FreeField S.fields S.client.style.classField := S.freeField
    Envelope.carries_wrapped S.faithful hvalid hfree S.route.className
  canonical := (Envelope.canonical_rename (S.faithful.canonical e hvalid)).insert (Envelope.sorted_rename _ _)
    (v := .str S.route.className.text) trivial _
  get?_class := by
    rw [Envelope.wrapped, Table.get?_insert]
    exact if_pos rfl
  get?_system name hs hid hrev hc := by
    have hplain := Envelope.plain_members S.faithful hvalid
    have hnone : (S.type.members e).get? name = none := by
      refine Table.get?_eq_none fun m hm heq => ?_
      rw [← heq, hplain m hm] at hs
      exact Bool.false_ne_true hs
    have hclass : name ≠ S.client.style.classField := hc
    rw [Envelope.get?_wrapped (S.faithful.sorted e hvalid) hplain hclass, if_neg hid, if_neg hrev, hnone]
    exact ite_self none

/-- What the server looks after in a document is in order as the document is. -/
theorem sorted_split (hs : doc.Sorted) : (Envelope.split doc).1.Sorted := by
  rw [Envelope.split, List.partition_eq_filter_filter]
  exact Table.sorted_filter hs _

/-- What the server looks after in a stored document: at most the class. -/
theorem Stores.get?_split_fst (h : S.Stores doc e) (name : String) :
    (Envelope.split doc).1.get? name
      = if name = S.classField ∧ Envelope.isSystem name then some (.str S.route.className.text) else none := by
  rw [Envelope.split, List.partition_eq_filter_filter, Table.get?_filter h.carries.sorted]
  by_cases hc : name = S.classField
  · subst hc
    have hid : S.classField ≠ "_id" := S.freeField.1
    have hrev : S.classField ≠ "_rev" := S.freeField.2.1
    rw [h.get?_class]
    cases hs : Envelope.isSystem S.classField <;> simp [Option.filter, hs, hid, hrev]
  · rw [if_neg fun hn => hc hn.1]
    by_cases hs : Envelope.isSystem name ∧ name ≠ "_id" ∧ name ≠ "_rev"
    · rw [h.get?_system name hs.1 hs.2.1 hs.2.2 hc]
      rfl
    · have hkeep : (Envelope.isSystem name && name != "_id" && name != "_rev") = false := by
        simpa [and_assoc] using hs
      simp [hkeep]

/-- **The rest of a stored document gives the entity.** -/
theorem Stores.decode_split (h : S.Stores doc e) :
    Envelope.decode S.type.reader S.classField (Envelope.split doc).2 = .ok e := by
  rw [Envelope.decode_split]
  exact h.decode

/-- The names under which the server keeps what is no text. -/
def nonText : List String :=
  ["_deleted", "_attachments", "_conflicts", "_deleted_conflicts", "_revs_info", "_revisions"]

/-- The server's members of a stored document can be read, unless the class has the name of one that is no text. -/
theorem Stores.system_readable (h : S.Stores doc e) (hc : S.classField ∉ nonText) :
    ∃ system, SystemFields.reader.ofJson (.obj (Envelope.split doc).1) = .ok system := by
  have hsorted := sorted_split h.carries.sorted
  have hnone : ∀ name ∈ nonText ++ ["error", "reason"], ∀ {β : Type} (r : Reader β),
      (Fields.nullable name r).build (.ofObject (Envelope.split doc).1 .value) = .ok none := by
    intro name hn β r
    refine Fields.build_nullable.2 (.inl ⟨.inl ?_, rfl⟩)
    rw [h.get?_split_fst, if_neg]
    rintro ⟨rfl, hs⟩
    rcases List.mem_append.1 hn with hn | hn
    · exact hc hn
    · have hplain : ∀ name ∈ ["error", "reason"], Envelope.isSystem name = false := by decide
      rw [hplain _ hn] at hs
      exact Bool.false_ne_true hs
  have hseq : ∃ seq, (Fields.nullable "_local_seq" Sequence.reader).build (.ofObject (Envelope.split doc).1 .value)
      = .ok seq := by
    have hget := h.get?_split_fst "_local_seq"
    split at hget
    · exact ⟨_, Fields.build_nullable.2 (.inr ⟨_, _, hget, by simp, rfl, rfl⟩)⟩
    · exact ⟨_, Fields.build_nullable.2 (.inl ⟨.inl hget, rfl⟩)⟩
  obtain ⟨seq, hseq⟩ := hseq
  refine ⟨⟨none, none, none, none, seq, none, none, none, none⟩, ?_⟩
  rw [SystemFields.reader, Reader.ofJson_record ?_ hsorted]
  · simp only [Fields.build_seq, Fields.build_map, hseq, Outcome.ok_bind, hnone "_deleted" (by decide),
      hnone "_attachments" (by decide), hnone "_conflicts" (by decide), hnone "_deleted_conflicts" (by decide),
      hnone "_revs_info" (by decide), hnone "_revisions" (by decide), hnone "error" (by decide),
      hnone "reason" (by decide)]
  · refine ((((Fields.Checked.seq ?_ Fields.checked_nullable).seq Fields.checked_nullable).seq
      Fields.checked_nullable).seq Fields.checked_nullable).seq Fields.checked_nullable
    exact (((Fields.checked_nullable.map _).seq Fields.checked_nullable).seq Fields.checked_nullable).seq
      Fields.checked_nullable

/-- **A document with its class under the name of what is no text cannot be read.** -/
theorem Stores.system_unreadable (h : S.Stores doc e) (hc : S.classField ∈ nonText) (system : SystemFields) :
    SystemFields.reader.ofJson (.obj (Envelope.split doc).1) ≠ .ok system := by
  intro hread
  have hbuild := Reader.build_of_ofJson_record hread
  simp only [Fields.build_seq, Fields.build_map, Outcome.bind_eq_ok] at hbuild
  have hsystem : ∀ name ∈ nonText, Envelope.isSystem name := by decide
  -- The class is a text, and a reader that reads none fails where the class stands.
  have hfails : ∀ {β : Type} {r : Reader β} {name : String} {a : Option β}, S.classField = name →
      (∀ s b, r.ofJson (.str s) ≠ .ok b) →
      (Fields.nullable name r).build (.ofObject (Envelope.split doc).1 .value) ≠ .ok a := by
    rintro β r name a rfl hr hfield
    have hget := h.get?_split_fst S.classField
    rw [if_pos ⟨rfl, hsystem _ hc⟩] at hget
    rcases Fields.build_nullable.1 hfield with ⟨hnone | hnull, -⟩ | ⟨v, b, hv, -, hb, -⟩
    · rw [hget] at hnone
      cases hnone
    · rw [hget] at hnull
      cases hnull
    · obtain rfl := Option.some.inj (hget.symm.trans hv)
      exact hr _ b hb
  obtain ⟨_, ⟨_, ⟨_, ⟨_, ⟨_, ⟨_, ⟨_, ⟨_, ⟨deleted, hdeleted, -⟩, attachments, hattachments, -⟩, conflicts, hconflicts, -⟩,
    deletedConflicts, hdeletedConflicts, -⟩, -⟩, revsInfo, hrevsInfo, -⟩, revisions, hrevisions, -⟩, -⟩, -⟩ := hbuild
  simp only [nonText, List.mem_cons, List.not_mem_nil, or_false] at hc
  rcases hc with hc | hc | hc | hc | hc | hc
  · exact hfails hc (fun _ _ => by simp [Reader.flag_ofJson]) hdeleted
  · exact hfails hc (fun _ _ hb => by cases hb) hattachments
  · exact hfails hc (fun _ _ hb => by cases hb) hconflicts
  · exact hfails hc (fun _ _ hb => by cases hb) hdeletedConflicts
  · exact hfails hc (fun _ _ hb => by cases hb) hrevsInfo
  · exact hfails hc (fun _ _ hb => by cases hb) hrevisions

end Site
end DocClient
