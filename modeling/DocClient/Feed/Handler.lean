/-
# Calling a handler for every change

A handler is called for every change in the order of the feed, one call at a time. A call that breaks down is counted,
and the handler is called for the next change as if nothing had happened. Before each call the loop looks whether the
feed was cancelled; a call under way runs to its end.
-/

import DocClient.Feed.Subscription

namespace DocClient

/-- A handler: whether it breaks down on a change, after it was called for some others. -/
abbrev Handler (ε : Type) := List (Change ε) → Change ε → Bool

/-- The loop that calls a handler. -/
structure HandlerLoop (ε : Type) where
  subscription : Subscription ε
  /-- The call under way. -/
  calling : Option (Change ε) := none
  /-- The calls so far, in order, and whether each broke down. -/
  calls : List (Change ε × Bool) := []
  /-- The loop is over. -/
  ended : Bool := false

/-- The moves of a handler loop. -/
inductive LoopMove where
  /-- The worker moves, or the feed is cancelled. -/
  | feed (m : Move)
  /-- The loop takes the next change and calls the handler for it, unless the feed was cancelled or has ended. -/
  | take
  /-- The call under way returns or breaks down. -/
  | complete
deriving DecidableEq, Repr

namespace HandlerLoop

variable {ε : Type}

/-- The loop after a move; none where the move cannot be made. -/
def move? (handler : Handler ε) (l : HandlerLoop ε) : LoopMove → Option (HandlerLoop ε)
  | .feed .receive | .feed .drop => none
  | .feed m => (l.subscription.move? m).map fun s => { l with subscription := s }
  | .take =>
    match l.calling with
    | some _ => none
    | none =>
      if l.ended then none
      else if l.subscription.cancelled then some { l with ended := true }
      else
        match l.subscription.channel with
        | change :: _ =>
          (l.subscription.move? .receive).map fun s => { l with subscription := s, calling := some change }
        | [] =>
          if l.subscription.isStopped then
            some { l with ended := true, subscription := { l.subscription with cancelled := true } }
          else none
  | .complete =>
    match l.calling with
    | some change =>
      some { l with calling := none, calls := l.calls ++ [(change, handler (l.calls.map Prod.fst) change)] }
    | none => none

/-- The loop after some moves; none where one of them cannot be made. -/
def run? (handler : Handler ε) (l : HandlerLoop ε) (moves : List LoopMove) : Option (HandlerLoop ε) :=
  moves.foldlM (move? handler) l

/-- What the loop reports when it and the worker are over. -/
def result? (l : HandlerLoop ε) : Option (Outcome Unit) := if l.ended then l.subscription.result? else none

/-- The changes that the handler took. -/
def taken (l : HandlerLoop ε) : List (Change ε) := (l.calls.filter fun c => !c.2).map Prod.fst

/-- How many calls broke down. -/
def breakdowns (l : HandlerLoop ε) : Nat := (l.calls.filter Prod.snd).length

/-- The moves that hand a number of changes to the handler, one after the other. -/
def eachChange (count : Nat) : List LoopMove :=
  (List.replicate count [.feed .parse, .feed .hand, .take, .complete]).flatten

/-- The loop after the handler was called for all changes, and the feed was then cancelled or failed. -/
def finished (handler : Handler ε) (s : Subscription ε) : Option (HandlerLoop ε) :=
  run? handler { subscription := s }
    (eachChange s.upcoming.length
      ++ (if s.failure.isSome then [.feed .fail, .take] else [.feed .cancel, .feed .halt, .take]))

end HandlerLoop
end DocClient
