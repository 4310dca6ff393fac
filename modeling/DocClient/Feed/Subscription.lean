/-
# Between worker and consumer

The worker hands changes to its consumer over a channel with room for a few of them. Both go on in any order, one move
at a time, and the consumer may cancel the feed or drop its end of the channel at any point:

| move | of | what happens |
| --- | --- | --- |
| `parse` | worker | the next change is read and the cursor moves to its position |
| `hand` | worker | the change goes into the channel, if there is room; without a consumer the worker stops |
| `fail` | worker | nothing is left to read, and the feed fails |
| `halt` | worker | it sees that the feed was cancelled and stops, with the change that it holds |
| `receive` | consumer | the first change in the channel is taken out |
| `cancel` | consumer | the feed is cancelled |
| `drop` | consumer | the feed is cancelled, and what is in the channel is lost |
-/

import DocClient.Feed.Worker

namespace DocClient

/-- What the worker of a subscription is about to do. -/
inductive HandPhase (ε : Type) where
  | reading
  /-- It holds a change, which is to go into the channel. -/
  | holding (change : Change ε)
  | stopped (result : Outcome Unit)

/-- A subscription: the worker, the channel and the consumer. -/
structure Subscription (ε : Type) where
  /-- The changes that the worker has not read yet. -/
  upcoming : List (Change ε)
  /-- How the feed fails after them, if it does. -/
  failure : Option ClientError
  phase : HandPhase ε := .reading
  cursor : Sequence
  /-- The room of the channel as it was asked for. -/
  capacity : Nat
  channel : List (Change ε) := []
  received : List (Change ε) := []
  /-- What was in the channel when the consumer dropped its end. -/
  lost : List (Change ε) := []
  cancelled : Bool := false
  dropped : Bool := false

/-- The moves of a subscription. -/
inductive Move where
  | parse
  | hand
  | fail
  | halt
  | receive
  | cancel
  | drop
deriving DecidableEq, Repr

namespace Subscription

variable {ε : Type}

/-- The room of the channel: at least for one change. -/
def room (s : Subscription ε) : Nat := max s.capacity 1

/-- The subscription after a move; none where the move cannot be made. -/
def move? (s : Subscription ε) : Move → Option (Subscription ε)
  | .parse =>
    match s.phase, s.upcoming with
    | .reading, change :: rest =>
      some { s with upcoming := rest, phase := .holding change, cursor := change.seq.getD s.cursor }
    | _, _ => none
  | .hand =>
    match s.phase with
    | .holding change =>
      if s.dropped then some { s with phase := .stopped (.ok ()) }
      else if s.channel.length < s.room then some { s with phase := .reading, channel := s.channel ++ [change] }
      else none
    | _ => none
  | .fail =>
    match s.phase, s.upcoming, s.failure with
    | .reading, [], some e => some { s with phase := .stopped (.error e) }
    | _, _, _ => none
  | .halt =>
    match s.phase with
    | .stopped _ => none
    | _ => if s.cancelled then some { s with phase := .stopped (.ok ()) } else none
  | .receive =>
    match s.channel with
    | change :: rest => if s.dropped then none else some { s with channel := rest, received := s.received ++ [change] }
    | [] => none
  | .cancel => some { s with cancelled := true }
  | .drop =>
    if s.dropped then none
    else some { s with cancelled := true, dropped := true, channel := [], lost := s.channel }

/-- The subscription after some moves; none where one of them cannot be made. -/
def run? (s : Subscription ε) (moves : List Move) : Option (Subscription ε) := moves.foldlM move? s

/-- The worker has stopped. -/
def isStopped (s : Subscription ε) : Bool :=
  match s.phase with
  | .stopped _ => true
  | _ => false

/-- What the worker reports when it has stopped. -/
def result? (s : Subscription ε) : Option (Outcome Unit) :=
  match s.phase with
  | .stopped result => some result
  | _ => none

/-- What the consumer is given when it asks for the next change: a change, or nothing for good once the worker has
stopped and the channel is empty; `none` while it has to wait. -/
def next? (s : Subscription ε) : Option (Option (Change ε)) :=
  match s.channel with
  | change :: _ => some (some change)
  | [] => if s.isStopped then some none else none

/-- A subscription to a feed whose connections get the given answers. -/
def ofFeed (f : Feed ε) (answers : List Answer) : Subscription ε :=
  let w := f.run answers
  { upcoming := w.delivered
    failure := match w.phase with | .failed e => some e | _ => none
    cursor := f.request.since
    capacity := f.settings.channelCapacity }

end Subscription
end DocClient
