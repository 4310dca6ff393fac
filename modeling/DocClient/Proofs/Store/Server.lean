/-
# A server that keeps versions

A server keeps the versions of a document, and the last of them is live unless it is a deletion. It takes the place of a
request apart, and a request for the document is answered from these versions (`Serves`). A write goes through exactly
when it names the live revision, or none where nothing is live; the new version gets a revision of its own.

| request | it names the live revision | else |
| --- | --- | --- |
| a write, by `_rev` of its body | 201, a new version | 409 |
| a deletion, by `rev` of its query | 200, a new version | 409 |
| a read | | 200 with the live document and its `_rev`, or 404 |

What the server sends of a document is a text, and all that is asked of the text is that the document is read of it: the
order of its members and the space between them are the server's. There is no such text of a document that nests deeper
than texts are read, so nothing is said of reads of it.
-/

import DocClient.Proofs.Http.Addresses
import DocClient.Proofs.Store.Stored
import Mathlib.Data.List.Permutation

namespace DocClient

/-- A version of a document: what was written, or nothing where it was deleted. -/
structure Version where
  rev : Revision
  body : Option Object

/-- The versions of a document, last version first. -/
abbrev History := List Version

namespace History

/-- The live version: the last one, unless it is a deletion. -/
def live? : History → Option (Revision × Object)
  | ⟨rev, some body⟩ :: _ => some (rev, body)
  | _ => none

/-- A revision that can be given out: one that means something and was never given out before. -/
structure Fresh (history : History) (rev : Revision) : Prop where
  meaningful : rev.isBlank = false
  unused : ∀ v ∈ history, v.rev ≠ rev

/-- A document with its revision. -/
def document (rev : Revision) (body : Object) : Object := body.insert "_rev" (.str rev.text)

theorem mem_of_live? {history : History} {rev : Revision} {body : Object} (h : history.live? = some (rev, body)) :
    ⟨rev, some body⟩ ∈ history := by
  unfold live? at h
  split at h
  · obtain ⟨rfl, rfl⟩ := Prod.mk.inj (Option.some.inj h)
    exact List.mem_cons_self ..
  · cases h

end History

/-- What the server says of a write that went through. -/
def acknowledgement (id : DocId) (rev : Revision) : List (Option String × Draft) :=
  [(some "ok", .bool true), (some "id", .str id.text), (some "rev", .str rev.text)]

/-- A text acknowledges a write: it says that, in some order. -/
def Acknowledges (text : String) (id : DocId) (rev : Revision) : Prop :=
  ∃ members, Draft.ofText text.toList = ⟨.obj members true, true⟩ ∧ members.Perm (acknowledgement id rev)

/-- What becomes of a request for a document, and the versions after it. -/
inductive Answers (id : DocId) (history : History) (r : Request) : Reply → History → Prop
  | written {body : Object} {text : String} {rev : Revision} (method : r.method = .put)
    (sent : r.body = some (.obj body)) (agrees : body.get? "_rev" = history.live?.map fun v => .str v.1.text)
    (fresh : history.Fresh rev) (told : Acknowledges text id rev) :
    Answers id history r ⟨201, text⟩ (⟨rev, some body⟩ :: history)
  | writeRefused {body : Object} {text : String} (method : r.method = .put) (sent : r.body = some (.obj body))
    (differs : body.get? "_rev" ≠ history.live?.map fun v => .str v.1.text) : Answers id history r ⟨409, text⟩ history
  | deleted {text : String} {rev : Revision} {live : Revision × Object} (method : r.method = .delete)
    (there : history.live? = some live) (agrees : r.option? "rev" = some live.1.text) (fresh : history.Fresh rev)
    (told : Acknowledges text id rev) : Answers id history r ⟨200, text⟩ (⟨rev, none⟩ :: history)
  | deleteRefused {text : String} (method : r.method = .delete)
    (differs : ∀ live, history.live? = some live → r.option? "rev" ≠ some live.1.text) :
    Answers id history r ⟨409, text⟩ history
  | found {text : String} {rev : Revision} {body : Object} (method : r.method = .get)
    (there : history.live? = some (rev, body))
    (told : Reader.ofText Reader.object text.toList = .ok (History.document rev body)) :
    Answers id history r ⟨200, text⟩ history
  | missing {text : String} (method : r.method = .get) (gone : history.live? = none) :
    Answers id history r ⟨404, text⟩ history

/-- Where a server keeps a document: below the segments of its base URL, by the names of the database and the document. -/
structure Shelf where
  base : List (List Char)
  database : DatabaseName
  id : DocId

/-- **The server's answer to a request that it finds to be for a document, and the versions after it.** -/
structure Serves (shelf : Shelf) (history : History) (r : Request) (reply : Reply) (history' : History) : Prop where
  addressed : r.Addresses shelf.base shelf.database.text shelf.id.text
  answers : Answers shelf.id history r reply history'

namespace Answers

variable {id : DocId} {history history' : History} {r : Request} {reply : Reply}

/-- What becomes of a write. -/
theorem of_put {body : Object} (h : Answers id history r reply history') (hm : r.method = .put)
    (hb : r.body = some (.obj body)) :
    (body.get? "_rev" = (history.live?.map fun v => .str v.1.text) ∧ ∃ text rev, history.Fresh rev
        ∧ Acknowledges text id rev ∧ reply = ⟨201, text⟩ ∧ history' = ⟨rev, some body⟩ :: history)
      ∨ (body.get? "_rev" ≠ (history.live?.map fun v => .str v.1.text) ∧ (∃ text, reply = ⟨409, text⟩)
        ∧ history' = history) := by
  cases h with
  | written method sent agrees fresh told =>
    obtain rfl := Json.obj.inj (Option.some.inj (sent.symm.trans hb))
    exact .inl ⟨agrees, _, _, fresh, told, rfl, rfl⟩
  | writeRefused method sent differs =>
    obtain rfl := Json.obj.inj (Option.some.inj (sent.symm.trans hb))
    exact .inr ⟨differs, ⟨_, rfl⟩, rfl⟩
  | _ method => cases method.symm.trans hm

/-- What becomes of a deletion. -/
theorem of_delete {named : Revision} (h : Answers id history r reply history') (hm : r.method = .delete)
    (hn : r.option? "rev" = some named.text) :
    (history.live?.map Prod.fst = some named ∧ ∃ text rev, history.Fresh rev
        ∧ Acknowledges text id rev ∧ reply = ⟨200, text⟩ ∧ history' = ⟨rev, none⟩ :: history)
      ∨ (history.live?.map Prod.fst ≠ some named ∧ (∃ text, reply = ⟨409, text⟩) ∧ history' = history) := by
  cases h with
  | deleted method there agrees fresh told =>
    refine .inl ⟨?_, _, _, fresh, told, rfl, rfl⟩
    rw [there]
    exact congrArg (fun text => some (Revision.mk text)) (Option.some.inj (agrees.symm.trans hn))
  | deleteRefused method differs =>
    refine .inr ⟨?_, ⟨_, rfl⟩, rfl⟩
    intro hlive
    obtain ⟨live, hthere, rfl⟩ := Option.map_eq_some_iff.1 hlive
    exact differs live hthere hn
  | _ method => cases method.symm.trans hm

/-- What becomes of a read. -/
theorem of_get (h : Answers id history r reply history') (hm : r.method = .get) :
    history' = history ∧ ((∃ rev body text, history.live? = some (rev, body)
        ∧ Reader.ofText Reader.object text.toList = .ok (History.document rev body) ∧ reply = ⟨200, text⟩)
      ∨ (history.live? = none ∧ ∃ text, reply = ⟨404, text⟩)) := by
  cases h with
  | found method there told => exact ⟨rfl, .inl ⟨_, _, _, there, told, rfl⟩⟩
  | missing method gone => exact ⟨rfl, .inr ⟨gone, _, rfl⟩⟩
  | _ method => cases method.symm.trans hm

end Answers

/-- The whole answer that brings a reply. -/
def Reply.answer (reply : Reply) : Answer := .answered reply.status (Text.encode reply.text.toList) .closed

theorem Reply.reply?_answer (reply : Reply) : reply.answer.reply? = some reply := by
  simp [answer, Answer.reply?, Text.decodeReplacing_encode]

/-- A call makes of an answer what it makes of the reply. -/
theorem Call.result_send {α : Type} (request : Request) (receive : Reply → Outcome α) (reply : Reply) :
    (Call.send request receive).result reply.answer = receive reply := by
  rw [result, reply.reply?_answer]

/-- An acknowledgement is read as what it says, in whatever order it does. -/
theorem writeReply_of_acknowledges {text : String} {id : DocId} {rev : Revision} {status : Nat} {successes : List Nat}
    (hstatus : status ∈ successes) (h : Acknowledges text id rev) :
    writeReply successes ⟨status, text⟩ = .ok { id := id.text, ok := true, rev := some rev } := by
  obtain ⟨members, htext, hperm⟩ := h
  have hread : WriteReply.reader (.text nestingLimit) (.obj members true)
      = .ok { id := id.text, ok := true, rev := some rev } := by
    have hmem := List.mem_permutations.2 hperm
    simp [acknowledgement, List.permutations] at hmem
    rcases hmem with rfl | rfl | rfl | rfl | rfl | rfl <;> rfl
  rw [writeReply, if_pos (by simpa using hstatus), Reader.ofText, htext, hread]
  rfl

namespace Site

variable {α : Type} {S : Site α} {history : History}

variable (S) in
/-- Versions such as clients keep: each stores an entity, and the revisions mean something and are never the same. -/
structure Kept (history : History) : Prop where
  stores : ∀ v ∈ history, ∀ body, v.body = some body → ∃ e, S.Stores (History.document v.rev body) e
  distinct : (history.map Version.rev).Nodup
  meaningful : ∀ v ∈ history, v.rev.isBlank = false

variable (S) in
/-- The entity that is there now: what the live version is decoded as, and none where nothing is live. -/
def current (history : History) : Option α :=
  history.live?.bind fun v => (Envelope.decode S.type.reader S.classField (History.document v.1 v.2)).toOption

theorem kept_nil : S.Kept [] where
  stores _ hv := absurd hv List.not_mem_nil
  distinct := List.nodup_nil
  meaningful _ hv := absurd hv List.not_mem_nil

/-- A version of a fresh revision goes with those that are kept. -/
theorem Kept.cons (h : S.Kept history) {rev : Revision} (hfresh : history.Fresh rev) {body : Option Object}
    (hbody : ∀ b, body = some b → ∃ e, S.Stores (History.document rev b) e) : S.Kept (⟨rev, body⟩ :: history) where
  stores := List.forall_mem_cons.2 ⟨hbody, h.stores⟩
  distinct := by
    refine List.nodup_cons.2 ⟨fun hmem => ?_, h.distinct⟩
    obtain ⟨v, hv, hrev⟩ := List.mem_map.1 hmem
    exact hfresh.unused v hv hrev
  meaningful := List.forall_mem_cons.2 ⟨hfresh.meaningful, h.meaningful⟩

/-- A stored document has the revision of the entity. -/
theorem Stores.revision_eq {rev : Revision} {body : Object} {e : α} (h : S.Stores (History.document rev body) e) :
    S.type.revision e = some rev := by
  have hget := h.get?_rev
  rw [History.document, Table.get?_insert, if_pos rfl] at hget
  obtain ⟨r, hr, htext⟩ := Option.map_eq_some_iff.1 hget.symm
  rw [hr]
  exact congrArg (fun text => some (Revision.mk text)) (Json.str.inj htext)

/-- The entity that is there now is the one that the live version stores. -/
theorem current_eq_some {rev : Revision} {body : Object} {e : α} (hlive : history.live? = some (rev, body))
    (h : S.Stores (History.document rev body) e) : S.current history = some e := by
  rw [current, hlive, Option.bind_some, h.decode]
  rfl

theorem current_eq_none (hlive : history.live? = none) : S.current history = none := by
  rw [current, hlive]
  rfl

/-- Something is live where an entity is there, and it stores the entity. -/
theorem Kept.live_of_current (h : S.Kept history) {e : α} (he : S.current history = some e) :
    ∃ rev body, history.live? = some (rev, body) ∧ S.Stores (History.document rev body) e := by
  cases hlive : history.live? with
  | none =>
    rw [current_eq_none hlive] at he
    cases he
  | some v =>
    obtain ⟨rev, body⟩ := v
    obtain ⟨there, hthere⟩ := h.stores _ (History.mem_of_live? hlive) body rfl
    obtain rfl := Option.some.inj ((current_eq_some hlive hthere).symm.trans he)
    exact ⟨rev, body, rfl, hthere⟩

end Site
end DocClient
