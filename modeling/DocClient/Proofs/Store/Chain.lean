/-
# Writing an entity again and again

An entity is created, and then each version is written that the write before gave: a chain of writes (`Client.chain`).
The entity of every link is the first one, but for its revision, which is what the server said last (`Client.Chained`):

| the server's reply, of status 201 or 202 | what the caller gets | the next write |
| --- | --- | --- |
| `ok`, with a revision | the entity at that revision | sends the same, with that revision under `_rev` |
| `ok`, with a blank revision | the entity at that revision | is refused before it is sent |
| `ok`, without a revision | a failure | there is none |
| not `ok` | a failure, or nothing if that is no failure to the caller | there is none |

A reply of another status, one that is no answer to a write, and no reply at all are failures.
-/

import DocClient.Proofs.Store.Accounting
import DocClient.Proofs.Store.Calls
import Mathlib.Data.List.Chain

namespace DocClient

/-- The reply to a write is read from a success. -/
theorem writeReply_eq_ok {successes : List Nat} {reply : Reply} {told : WriteReply} :
    writeReply successes reply = .ok told
      ↔ reply.status ∈ successes ∧ Reader.ofText WriteReply.reader reply.text.toList = .ok told := by
  rw [writeReply]
  split
  · rename_i h
    rw [Outcome.ofRead_eq_ok, iff_and_self]
    exact fun _ => List.contains_iff_mem.1 h
  · rename_i h
    constructor
    · intro hread
      cases hread
    · rintro ⟨hstatus, -⟩
      exact absurd (List.contains_iff_mem.2 hstatus) h

namespace Written

variable {α : Type} {T : EntityType α} {e : α}

/-- A caller that asks for an acknowledged write gets an entity or a failure. -/
theorem updated_strict_ne_none (w : Written α) : w.updated true ≠ .ok none := by
  rw [updated]
  cases w.entity <;> cases w.reply.ok <;> simp [updated.missing]

/-- An entity comes of a reply that says a revision, and it is the one that was written, at that revision. -/
theorem updated_ofReply {told : WriteReply} {e' : α} :
    ((ofReply T e told).bind fun w => w.updated true) = .ok (some e')
      ↔ told.ok = true ∧ ∃ rev, told.rev = some rev ∧ e' = T.withRevision e rev := by
  rw [ofReply]
  cases hok : told.ok with
  | false => simp [Except.bind, updated, updated.missing]
  | true =>
    cases told.rev with
    | none => simp [Except.bind]
    | some rev => simpa [Except.bind, updated, hok] using eq_comm

end Written

/-- One write of a chain: what is written, the call for it, and what becomes of its request. -/
structure Link (α : Type) where
  entity : α
  call : Call (Written α)
  answer : Answer

namespace Link

variable {α : Type} {T : EntityType α} {e : α} {l : Link α}

/-- What the write comes to. -/
def result (l : Link α) : Outcome (Written α) := l.call.result l.answer

/-- The server's reply; there is none where nothing was sent. -/
def reply? (l : Link α) : Option Reply := l.call.request?.bind fun _ => l.answer.reply?

/-- The version that the write gives to a caller that asks for an acknowledged write. -/
def next (l : Link α) : Outcome (Option α) := l.result.bind fun w => w.updated true

/-- The server answered the write with a success, and said something in it. -/
def Told (l : Link α) (told : WriteReply) : Prop :=
  ∃ reply, l.reply? = some reply ∧ (reply.status = 201 ∨ reply.status = 202)
    ∧ Reader.ofText WriteReply.reader reply.text.toList = .ok told

variable (T e) in
/-- A link writes an entity, if it sends anything. -/
inductive Writes (l : Link α) : Prop
  | sends {r : Request}
    (call : l.call = .send r fun reply => do Written.ofReply T e (← writeReply [201, 202] reply))
  | fails {failure : ClientError} (call : l.call = .done (.error failure))

/-- **What a write comes to is a matter of what the server said.** -/
theorem Writes.result_of_told (h : l.Writes T e) {told : WriteReply} (htold : l.Told told) :
    l.result = Written.ofReply T e told := by
  obtain ⟨reply, hreply, hstatus, hread⟩ := htold
  rw [reply?] at hreply
  cases h with
  | fails hcall =>
    rw [hcall] at hreply
    cases hreply
  | sends hcall =>
    rw [hcall, Call.request?, Option.bind_some] at hreply
    have hsuccess : writeReply [201, 202] reply = .ok told := writeReply_eq_ok.2 ⟨by simpa using hstatus, hread⟩
    rw [result, hcall, Call.result, hreply]
    exact congrArg (fun outcome => outcome >>= Written.ofReply T e) hsuccess

/-- A write that comes to something was answered. -/
theorem Writes.told_of_result (h : l.Writes T e) {w : Written α} (hw : l.result = .ok w) : ∃ told, l.Told told := by
  rw [result] at hw
  cases h with
  | fails hcall =>
    rw [hcall] at hw
    cases hw
  | sends hcall =>
    rw [hcall, Call.result] at hw
    cases hreply : l.answer.reply? with
    | none =>
      rw [hreply] at hw
      cases hw
    | some reply =>
      rw [hreply] at hw
      obtain ⟨told, htold, -⟩ := Outcome.bind_eq_ok.1 hw
      obtain ⟨hstatus, hread⟩ := writeReply_eq_ok.1 htold
      refine ⟨told, reply, ?_, by simpa using hstatus, hread⟩
      rw [reply?, hcall, Call.request?, Option.bind_some, hreply]

/-- **A write gives a version exactly where the server said a revision**, and the version is what was written, at that
revision. -/
theorem Writes.next_eq_some_iff (h : l.Writes T e) {e' : α} :
    l.next = .ok (some e') ↔ ∃ told rev, l.Told told ∧ told.ok = true ∧ told.rev = some rev
      ∧ e' = T.withRevision e rev := by
  constructor
  · intro hnext
    obtain ⟨w, hw, -⟩ := Outcome.bind_eq_ok.1 hnext
    obtain ⟨told, htold⟩ := h.told_of_result hw
    rw [next, h.result_of_told htold, Written.updated_ofReply] at hnext
    obtain ⟨hok, rev, hrev, he'⟩ := hnext
    exact ⟨told, rev, htold, hok, hrev, he'⟩
  · rintro ⟨told, rev, htold, hok, hrev, he'⟩
    rw [next, h.result_of_told htold, Written.updated_ofReply]
    exact ⟨hok, rev, hrev, he'⟩

/-- A server that acknowledges a write has to say the revision. -/
theorem Writes.result_of_unrevised (h : l.Writes T e) {told : WriteReply} (htold : l.Told told) (hok : told.ok = true)
    (hrev : told.rev = none) : l.result = .error (.responseRevisionMissing told.id) := by
  rw [h.result_of_told htold, Written.ofReply, if_pos hok, hrev]

/-- A write that the server does not acknowledge gives no version; whether that is a failure is up to the caller. -/
theorem Writes.result_of_unacknowledged (h : l.Writes T e) {told : WriteReply} (htold : l.Told told)
    (hok : told.ok = false) : ∃ w, l.result = .ok w ∧ w.updated true = .error (.writeFailed told)
      ∧ w.updated false = .ok none := by
  refine ⟨⟨told, none⟩, ?_, rfl, rfl⟩
  rw [h.result_of_told htold, Written.ofReply, hok]
  rfl

end Link

namespace Client

variable {α : Type}

/-- Writes an entity, and then each version that the write before gave by updating it. -/
def links (c : Client) (T : EntityType α) : (α → Plan (Written α)) → Routes → α → List Answer → List (Link α)
  | _, _, _, [] => []
  | write, routes, e, a :: rest =>
    let link : Link α := ⟨e, (write e routes).1, a⟩
    link :: match link.next with
      | .ok (some e') => links c T (c.update T) (write e routes).2 e' rest
      | _ => []

/-- Creates an entity and updates it again and again, given what becomes of the requests. -/
def chain (c : Client) (T : EntityType α) (routes : Routes) (e : α) (answers : List Answer) : List (Link α) :=
  c.links T (c.insert T) routes e answers

section

variable (c : Client) (T : EntityType α) (route : Route) (first : α) (body : Object)

/-- The body of the write of an entity at a revision: the first body, with the revision under `_rev`. -/
def revised : Option Revision → Object
  | none => body
  | some rev => body.insert "_rev" (.str rev.text)

/-- The entity at a revision, and nothing else of it changed; without one it is as it was at first. -/
def atRevision? : Option Revision → α
  | none => first
  | some rev => T.withRevision first rev

/-- A link writes the first entity at a revision. -/
structure LinksAt (rev? : Option Revision) (l : Link α) : Prop where
  entity_eq : l.entity = atRevision? T first rev?
  changed : ∀ rev, rev? = some rev → T.AtRevision first rev l.entity
  /-- It is refused, and nothing is sent, exactly where the revision is blank. -/
  refused_iff : l.call = .done (.error (.misuse (.updateWithoutRevision (T.id first))))
    ↔ rev?.any Revision.isBlank = true
  /-- Else it sends the body to the document. -/
  request_eq : rev?.any Revision.isBlank = false → l.call.request?
    = c.request? .put [route.database.text, (T.id first).text] (some []) (some (.obj (revised body rev?)))
  /-- It gives a version exactly where the server acknowledged it with a revision. -/
  next_iff : ∀ e, l.next = .ok (some e) ↔ ∃ told rev, l.Told told ∧ told.ok = true ∧ told.rev = some rev
    ∧ e = T.withRevision first rev
  /-- An acknowledgement without a revision is a failure. -/
  unrevised : ∀ told, l.Told told → told.ok = true → told.rev = none →
    l.result = .error (.responseRevisionMissing told.id)
  /-- Without an acknowledgement there is no version, which is a failure to those who asked for one. -/
  unacknowledged : ∀ told, l.Told told → told.ok = false → ∃ w, l.result = .ok w
    ∧ w.updated true = .error (.writeFailed told) ∧ w.updated false = .ok none

/-- Some links are a chain of writes that starts with the first entity at a revision. -/
structure Chained (rev? : Option Revision) (answers : List Answer) (links : List (Link α)) : Prop where
  head : ∀ l ∈ links.head?, LinksAt c T route first body rev? l
  /-- Each link after the first is written at the revision that the server said to the one before it. -/
  linked : links.IsChain fun l l' => ∃ told rev, l.Told told ∧ told.ok = true ∧ told.rev = some rev
    ∧ LinksAt c T route first body (some rev) l'
  /-- The links have the answers in order, up to the first that gives no version. -/
  answered : links.map Link.answer <+: answers
  ended : ∀ l ∈ links.getLast?, links.length < answers.length → ∀ e, l.next ≠ .ok (some e)

end

variable {c : Client} {T : EntityType α} {fields : List String} {Valid : α → Prop} {routes : Routes} {route : Route}
  {first : α} {rev? : Option Revision}

/-- Writing an entity leaves the routes with that of its type settled. -/
theorem upsert_after (hT : T.Faithful fields Valid) {e : α} (he : Valid e) (hid : (T.id e).isBlank = false)
    {after : Routes} (hresolve : routes.resolve T.name = .ok (route, after)) : (c.upsert T e routes).2 = after := by
  have hencode := Envelope.encode_eq hT he c.style route.className
  simp only [upsert, upsertWith, Plan.of, Prepared.run_bind, Prepared.run_of, Prepared.run_pure,
    Routes.run_require hresolve, requireId_eq hid, hencode]

/-- Creating an entity without revision is writing it. -/
theorem insert_eq_upsert {e : α} (hid : (T.id e).isBlank = false) (hrev : T.revision e = none) :
    c.insert T e = c.upsert T e := by
  funext routes
  simp [insert, guarded, requireId_eq hid, hrev]

/-- Updating an entity with a revision is writing it, unless the revision is blank. -/
theorem update_eq_upsert {e : α} (hid : (T.id e).isBlank = false) {rev : Revision} (hrev : T.revision e = some rev) :
    c.update T e routes = if rev.isBlank then (.done (.error (.misuse (.updateWithoutRevision (T.id e)))), routes)
      else c.upsert T e routes := by
  cases hblank : rev.isBlank <;> simp [update, guarded, requireId_eq hid, hrev, hblank]

/-- Without an answer there is no link. -/
theorem chained_nil {body : Object} : Chained c T route first body rev? [] [] where
  head l hl := absurd hl (by simp)
  linked := .nil
  answered := List.prefix_rfl
  ended l hl := absurd hl (by simp)

/-- A link that gives no version is the last one. -/
theorem chained_singleton {body : Object} {l : Link α} (hlink : LinksAt c T route first body rev? l)
    (hstop : ∀ e, l.next ≠ .ok (some e)) (rest : List Answer) :
    Chained c T route first body rev? (l.answer :: rest) [l] where
  head := by
    rintro l' hl'
    obtain rfl := Option.mem_some_iff.1 hl'
    exact hlink
  linked := .singleton l
  answered := ⟨rest, rfl⟩
  ended := by
    rintro l' hl' -
    obtain rfl := Option.mem_some_iff.1 hl'
    exact hstop

/-- A link that gives a version stands before the links at its revision. -/
theorem Chained.cons {body : Object} {l : Link α} (hlink : LinksAt c T route first body rev? l) {told : WriteReply}
    {rev : Revision} (htold : l.Told told) (hok : told.ok = true) (hrev : told.rev = some rev) {rest : List Answer}
    {links : List (Link α)} (hrest : Chained c T route first body (some rev) rest links)
    (hne : rest ≠ [] → links ≠ []) : Chained c T route first body rev? (l.answer :: rest) (l :: links) where
  head := by
    rintro l' hl'
    obtain rfl := Option.mem_some_iff.1 hl'
    exact hlink
  linked := hrest.linked.cons fun l' hl' => ⟨told, rev, htold, hok, hrev, hrest.head l' hl'⟩
  answered := List.cons_prefix_cons.2 ⟨rfl, hrest.answered⟩
  ended := by
    intro last hlast hlt
    have hlt : links.length < rest.length := Nat.lt_of_succ_lt_succ hlt
    have hlinks : links ≠ [] := hne (List.ne_nil_of_length_pos (Nat.zero_lt_of_lt hlt))
    rw [List.getLast?_cons_of_ne_nil hlinks] at hlast
    exact hrest.ended last hlast hlt

/-- There is a link for the first answer. -/
theorem links_ne_nil (write : α → Plan (Written α)) (routes : Routes) (e : α) {answers : List Answer}
    (h : answers ≠ []) : c.links T write routes e answers ≠ [] := by
  cases answers with
  | nil => exact absurd rfl h
  | cons a rest => exact List.cons_ne_nil _ _

section Faithful

variable (hT : T.Faithful fields Valid) (hfirst : Valid first) (hid : (T.id first).isBlank = false)
  (hnew : T.revision first = none) (hclass : c.style.classField ≠ "_rev")

include hT hfirst in
theorem valid_atRevision? (rev? : Option Revision) : Valid (atRevision? T first rev?) := by
  cases rev? with
  | none => exact hfirst
  | some rev => exact hT.valid_withRevision first hfirst rev

include hT in
theorem id_atRevision? (rev? : Option Revision) : T.id (atRevision? T first rev?) = T.id first := by
  cases rev? with
  | none => rfl
  | some rev => exact hT.id_withRevision first rev

include hT hfirst in
/-- Whatever revision a version has, the next revision makes the same of it as of the first one. -/
theorem withRevision_atRevision? (rev? : Option Revision) (rev : Revision) :
    T.withRevision (atRevision? T first rev?) rev = T.withRevision first rev := by
  cases rev? with
  | none => rfl
  | some earlier => exact hT.withRevision_withRevision hfirst earlier rev

include hT hfirst hclass in
/-- A version is stored as the first one is, but for the revision. -/
theorem wrapped_atRevision? (className : ClassName) (rev? : Option Revision) :
    Envelope.wrapped c.style className (T.members (atRevision? T first rev?))
      = revised (Envelope.wrapped c.style className (T.members first)) rev? := by
  cases rev? with
  | none => rfl
  | some rev => exact Envelope.wrapped_withRevision hT hfirst hclass className rev

/-- A call that sends the write of an entity or fails without it. -/
theorem writes_putDocument (path : List String) (document : Object) (e : α) (a : Answer) :
    (⟨e, c.putDocument T path document {} e, a⟩ : Link α).Writes T e := by
  rw [putDocument, call]
  cases c.request? .put path (some ({} : WriteOptions).query) (some (.obj document)) with
  | none => exact .fails rfl
  | some r => exact .sends rfl

include hT hfirst in
/-- What a link gives follows from what was said to it, if it writes the entity at a revision. -/
theorem linksAt_of_writes {body : Object} {l : Link α} (hentity : l.entity = atRevision? T first rev?)
    (hwrites : l.Writes T (atRevision? T first rev?))
    (hrefused : l.call = .done (.error (.misuse (.updateWithoutRevision (T.id first))))
      ↔ rev?.any Revision.isBlank = true)
    (hrequest : rev?.any Revision.isBlank = false → l.call.request?
      = c.request? .put [route.database.text, (T.id first).text] (some []) (some (.obj (revised body rev?)))) :
    LinksAt c T route first body rev? l where
  entity_eq := hentity
  changed rev hrev := by
    subst hrev
    rw [hentity]
    exact hT.atRevision hfirst rev
  refused_iff := hrefused
  request_eq := hrequest
  next_iff e := by
    rw [hwrites.next_eq_some_iff]
    simp only [withRevision_atRevision? hT hfirst]
  unrevised _ := hwrites.result_of_unrevised
  unacknowledged _ := hwrites.result_of_unacknowledged

include hT hfirst hid hclass in
/-- A version of another revision than a blank one is sent. -/
theorem linksAt_upsert {after : Routes} (hresolve : routes.resolve T.name = .ok (route, after))
    (hblank : rev?.any Revision.isBlank = false) (a : Answer) :
    LinksAt c T route first (Envelope.wrapped c.style route.className (T.members first)) rev?
      ⟨atRevision? T first rev?, (c.upsert T (atRevision? T first rev?) routes).1, a⟩ := by
  have hidAt : T.id (atRevision? T first rev?) = T.id first := id_atRevision? hT rev?
  rw [upsert_eq_put hT (valid_atRevision? hT hfirst rev?) hresolve (hidAt ▸ hid), hidAt,
    wrapped_atRevision? hT hfirst hclass]
  refine linksAt_of_writes hT hfirst rfl (writes_putDocument ..) ?_ fun _ => ?_
  · rw [hblank]
    refine ⟨fun hcall => ?_, nofun⟩
    rw [putDocument, call] at hcall
    split at hcall
    · cases hcall
    · cases hcall
  · have hquery : ({} : WriteOptions).query = [] := rfl
    rw [putDocument, request?_call, hquery]

include hT hfirst in
/-- A version of a blank revision is refused. -/
theorem linksAt_refused {body : Object} (hblank : rev?.any Revision.isBlank = true) (a : Answer) :
    LinksAt c T route first body rev?
      ⟨atRevision? T first rev?, .done (.error (.misuse (.updateWithoutRevision (T.id first)))), a⟩ := by
  refine linksAt_of_writes hT hfirst rfl (.fails rfl) ⟨fun _ => hblank, fun _ => rfl⟩ fun hnot => ?_
  rw [hblank] at hnot
  cases hnot

/-- The call that a link is made by: the first one creates, the others update. -/
def Makes (c : Client) (T : EntityType α) (write : α → Plan (Written α)) (rev? : Option Revision) : Prop :=
  (rev? = none ∧ write = c.insert T) ∨ ((∃ rev, rev? = some rev) ∧ write = c.update T)

include hT hfirst hid hnew hclass in
/-- **One link**, and the routes after it if it gave a version. -/
theorem linksAt_write {write : α → Plan (Written α)} (hmakes : c.Makes T write rev?) {after : Routes}
    (hresolve : routes.resolve T.name = .ok (route, after)) (a : Answer) :
    LinksAt c T route first (Envelope.wrapped c.style route.className (T.members first)) rev?
        ⟨atRevision? T first rev?, (write (atRevision? T first rev?) routes).1, a⟩
      ∧ ∃ later, (write (atRevision? T first rev?) routes).2.resolve T.name = .ok (route, later) := by
  have hvalid := valid_atRevision? hT hfirst rev?
  have hidAt : T.id (atRevision? T first rev?) = T.id first := id_atRevision? hT rev?
  -- a refused write looks at no route, so the two ways a link may go have different routes after them
  have hsettled : ∃ later, (c.upsert T (atRevision? T first rev?) routes).2.resolve T.name = .ok (route, later) := by
    rw [upsert_after hT hvalid (hidAt ▸ hid) hresolve]
    exact ⟨after, Routes.resolve_after hresolve⟩
  rcases hmakes with ⟨rfl, rfl⟩ | ⟨⟨rev, rfl⟩, rfl⟩
  · have hinsert : c.insert T (atRevision? T first none) = c.upsert T (atRevision? T first none) :=
      insert_eq_upsert hid hnew
    rw [hinsert]
    exact ⟨linksAt_upsert hT hfirst hid hclass hresolve rfl a, hsettled⟩
  · have hrev : T.revision (atRevision? T first (some rev)) = some rev := hT.revision_withRevision first rev
    rw [update_eq_upsert (hidAt ▸ hid) hrev, hidAt]
    cases hblank : rev.isBlank with
    | true =>
      have hblank : (some rev).any Revision.isBlank = true := hblank
      exact ⟨linksAt_refused hT hfirst hblank a, after, hresolve⟩
    | false =>
      have hblank : (some rev).any Revision.isBlank = false := hblank
      exact ⟨linksAt_upsert hT hfirst hid hclass hresolve hblank a, hsettled⟩

include hT hfirst hid hnew hclass in
/-- **All links**, by induction on the answers: a link that gives a version hands its revision on to the next. -/
theorem chained_links {write : α → Plan (Written α)} (hmakes : c.Makes T write rev?) {after : Routes}
    (hresolve : routes.resolve T.name = .ok (route, after)) (answers : List Answer) :
    Chained c T route first (Envelope.wrapped c.style route.className (T.members first)) rev? answers
      (c.links T write routes (atRevision? T first rev?) answers) := by
  induction answers generalizing write routes rev? after with
  | nil =>
    rw [links]
    exact chained_nil
  | cons a rest ih =>
    -- the next link is made with the routes that this one leaves, where the type is settled
    obtain ⟨hlink, later, hlater⟩ := linksAt_write hT hfirst hid hnew hclass hmakes hresolve a
    rw [links]
    split
    · rename_i e' hnext
      obtain ⟨told, rev, htold, hok, hrev, rfl⟩ := (hlink.next_iff e').1 hnext
      have hmakesNext : c.Makes T (c.update T) (some rev) := .inr ⟨⟨rev, rfl⟩, rfl⟩
      exact .cons hlink htold hok hrev (ih hmakesNext hlater) (links_ne_nil _ _ _)
    · rename_i hnone
      exact chained_singleton hlink hnone rest

/-- **Revisions are handed on along a chain of writes.** Whatever becomes of the requests, each link writes the entity
that was created at the revision that the server said to the link before it, under the same target and with the same
body but for that revision; it gives a version exactly where the server acknowledges it with a revision, and is refused
before it is sent exactly where its own revision is blank. No call that asks for an acknowledged write gives nothing. -/
theorem chained_chain (hT : T.Faithful fields Valid) (hfirst : Valid first) (hid : (T.id first).isBlank = false)
    (hnew : T.revision first = none) (hclass : c.style.classField ≠ "_rev") {after : Routes}
    (hresolve : routes.resolve T.name = .ok (route, after)) (answers : List Answer) :
    (∃ body : Object, Envelope.encode c.style route.className (T.toJson first) = .ok body ∧ body.get? "_rev" = none
      ∧ Chained c T route first body none answers (c.chain T routes first answers))
    ∧ ∀ w : Written α, w.updated true ≠ .ok none := by
  refine ⟨⟨_, Envelope.encode_eq hT hfirst c.style route.className, ?_, ?_⟩, Written.updated_strict_ne_none⟩
  · rw [Envelope.get?_rev_wrapped hT hfirst hclass]
    exact (hT.get?_revision first hfirst).trans (by rw [hnew]; rfl)
  · exact chained_links hT hfirst hid hnew hclass (.inl ⟨rfl, rfl⟩) hresolve answers

end Faithful

/-- An entity that no server knows. -/
def sampleEntity : StockEntity := .test { id := ⟨"a"⟩, label := "l" }

/-- A server that acknowledges two writes, the second of them with a blank revision. -/
def sampleAnswers : List Answer :=
  [Reply.answer ⟨201, "\x7b\"ok\":true,\"id\":\"a\",\"rev\":\"1-x\"\x7d"⟩,
    Reply.answer ⟨202, "\x7b\"ok\":true,\"rev\":\" \"\x7d"⟩, Reply.answer ⟨201, "\x7b\"ok\":true\x7d"⟩]

/-- Two of the three writes are sent, the second with the revision of the first, and the third is refused. -/
theorem chained_chain_sample : ∃ body : Object,
    Chained sample EntityKind.test.type ⟨⟨"db"⟩, ⟨"Test"⟩⟩ sampleEntity body none sampleAnswers
        (sample.chain EntityKind.test.type .sample sampleEntity sampleAnswers)
      ∧ (sample.chain EntityKind.test.type .sample sampleEntity sampleAnswers).map
          (fun l => (l.entity.revision, l.call.request?.bind Request.body))
        = [(none, some (.obj body)), (some ⟨"1-x"⟩, some (.obj (body.insert "_rev" (.str "1-x")))),
          (some ⟨" "⟩, none)] := by
  have hfits : sampleEntity.kind = .test ∧ sampleEntity.Fits := ⟨rfl, by decide, by decide⟩
  have hresolve : Routes.sample.resolve EntityKind.test.type.name = .ok (⟨⟨"db"⟩, ⟨"Test"⟩⟩, .sample) := by
    decide
  obtain ⟨⟨body, hbody, -, hchained⟩, -⟩ := chained_chain (c := sample) EntityKind.test.faithful hfits (by decide) rfl
    (by decide) hresolve sampleAnswers
  have hstored := Envelope.encode_eq EntityKind.test.faithful hfits sample.style ⟨"Test"⟩
  obtain rfl := Except.ok.inj (hstored.symm.trans hbody)
  refine ⟨_, hchained, ?_⟩
  decide +kernel

end Client
end DocClient
