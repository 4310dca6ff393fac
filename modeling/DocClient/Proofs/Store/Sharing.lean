/-
# Clients that share a document

Any number of clients work on one document, each on its own. A client holds entities (`Holding`): those that it made
itself, without a revision, and those that came from its calls; it may edit what it holds. A call is sent at some time,
the server serves it at a later one, and its result arrives later still, so that the calls of several clients come
between one another in any order (`Sharing.Step`).

| step | what it changes |
| --- | --- |
| `make`, `edit` | a client holds an entity more |
| `send` | a call is under way |
| `refuse` | a call that sends nothing has ended |
| `serve` | the server has served a call, and the call has ended |
| `receive` | a client holds the entity that a call of its own ended with |

Each write that succeeded is in a log, with the entity that it started from and the one that it left.
-/

import DocClient.Proofs.Store.Calls

namespace DocClient

/-- What a client holds: an entity, and what it was made of (`base`), which is none where the client made it itself. -/
structure Holding (α : Type) where
  base : Option α
  now : α

/-- What a client does about the document. -/
inductive Act (α : Type) where
  | get
  | insert (held : Holding α)
  | update (held : Holding α)
  | delete (held : Holding α) (batch : Bool)

namespace Act

variable {α : Type}

/-- What is written or deleted. -/
def holding? : Act α → Option (Holding α)
  | .get => none
  | .insert held | .update held | .delete held _ => some held

/-- The call of a client whose routes are such, for the entity that is there after it. -/
def call (S : Site α) (routes : Routes) : Act α → Call (Option α)
  | .get => (S.client.get S.type S.id {} routes).1
  | .insert held => (S.client.insert S.type held.now routes).1.andThen fun written => .ok written.entity
  | .update held => (S.client.update S.type held.now routes).1.andThen fun written => .ok written.entity
  | .delete held batch => (S.client.deleteEntity S.type held.now batch routes).1.andThen fun _ => .ok none

/-- The entry of a write that succeeded: what it started from and what it left. -/
def entry (act : Act α) (outcome : Outcome (Option α)) : List (Option α × Option α) :=
  match act.holding?, outcome with
  | some held, .ok left => [(held.base, left)]
  | _, _ => []

theorem entry_ok {act : Act α} {held : Holding α} (h : act.holding? = some held) (left : Option α) :
    act.entry (.ok left) = [(held.base, left)] := by
  simp [entry, h]

theorem entry_error (act : Act α) (e : ClientError) : act.entry (.error e) = [] := by
  simp [entry]

end Act

/-- A call under way. -/
structure Sent (α : Type) where
  client : Nat
  act : Act α
  call : Call (Option α)

/-- The document on the server, and all that its clients hold and do. -/
structure Sharing (α : Type) where
  history : History
  /-- What each client holds. -/
  held : Nat → List (Holding α) := fun _ => []
  sent : List (Sent α) := []
  /-- The results of the calls that have ended. -/
  results : List (Nat × Outcome (Option α)) := []
  /-- The writes that succeeded, last one first. -/
  log : List (Option α × Option α) := []

namespace Sharing

variable {α : Type} (S : Site α)

/-- A client holds an entity more. -/
def hold (s : Sharing α) (client : Nat) (h : Holding α) : Sharing α :=
  { s with held := fun i => if i = client then h :: s.held i else s.held i }

/-- A call has ended; so it is with the versions and with the other calls after it. -/
def finish (s : Sharing α) (p : Sent α) (outcome : Outcome (Option α)) (history : History) (others : List (Sent α)) :
    Sharing α where
  history
  held := s.held
  sent := others
  results := (p.client, outcome) :: s.results
  log := p.act.entry outcome ++ s.log

/-- **What may happen next.** -/
inductive Step : Sharing α → Sharing α → Prop
  | make (s : Sharing α) (client : Nat) {e : α} (valid : S.Valid e) (id : S.type.id e = S.id)
    (new : S.type.revision e = none) : Step s (s.hold client ⟨none, e⟩)
  | edit (s : Sharing α) (client : Nat) {h : Holding α} {e : α} (held : h ∈ s.held client) (valid : S.Valid e)
    (id : S.type.id e = S.id) (same : S.type.revision e = S.type.revision h.now) : Step s (s.hold client ⟨h.base, e⟩)
  | send (s : Sharing α) (client : Nat) {act : Act α} {routes : Routes} (routed : S.Routed routes)
    (held : ∀ h, act.holding? = some h → h ∈ s.held client) :
    Step s { s with sent := ⟨client, act, act.call S routes⟩ :: s.sent }
  | refuse (s : Sharing α) {before after : List (Sent α)} {p : Sent α} {outcome : Outcome (Option α)}
    (sent : s.sent = before ++ p :: after) (done : p.call = .done outcome) :
    Step s (s.finish p outcome s.history (before ++ after))
  | serve (s : Sharing α) {before after : List (Sent α)} {p : Sent α} {r : Request} {reply : Reply} {history : History}
    (sent : s.sent = before ++ p :: after) (request : p.call.request? = some r)
    (serves : Serves S.shelf s.history r reply history) :
    Step s (s.finish p (p.call.result reply.answer) history (before ++ after))
  | receive (s : Sharing α) {client : Nat} {e : α} (result : (client, .ok (some e)) ∈ s.results) :
    Step s (s.hold client ⟨some e, e⟩)

/-- What may be, from the versions that were there first. -/
inductive Reachable (first : History) : Sharing α → Prop
  | start : Reachable first { history := first }
  | step {s s' : Sharing α} (before : Reachable first s) (next : Step S s s') : Reachable first s'

end Sharing

/-- Writes follow one another, last one first: each started from what the one before it left. -/
def Line {α : Type} (first : Option α) : List (Option α × Option α) → Option α → Prop
  | [], now => now = first
  | (base, left) :: log, now => now = left ∧ Line first log base

end DocClient
