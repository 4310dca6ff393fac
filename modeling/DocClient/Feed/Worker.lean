/-
# Keeping a feed going

A worker keeps one connection of a feed open at a time. It delivers the changes of each connection in order, and before
it delivers one with a position it moves its cursor there. When a connection ends, however it ends, it waits and
connects again at the cursor:

| the connection | what the worker does |
| --- | --- |
| cannot be made, or is silent for too long | logs it and waits |
| is answered with a status other than 200 | reads the answer to its end, logs it and waits |
| ends, breaks, or is silent for too long after some lines | logs it and waits |
| has a change whose document cannot be decoded | stops for good |

The delay doubles with every connection that delivered nothing, up to a bound, and starts anew after one that
delivered something. Reading an answer of another status is not bounded in time: if it stalls the worker stands still.
-/

import DocClient.Client
import DocClient.Feed.Change
import DocClient.Feed.Stream

namespace DocClient

/-- A feed that a client follows. -/
structure Feed (ε : Type) where
  client : Client
  database : DatabaseName
  request : FeedRequest
  dispatch : Dispatch ε
  settings : FeedSettings

/-- How a connection ends. -/
inductive VisitEnd where
  | closed
  | interrupted (reason : Interruption)
  | failed (e : ClientError)
  /-- It does not end. -/
  | endless
deriving DecidableEq

/-- One connection: the changes that it delivers, what is logged meanwhile, and how it ends. -/
structure Visit (ε : Type) where
  changes : List (Change ε)
  log : List LogEntry
  ending : VisitEnd

/-- Where a worker stands. -/
inductive WorkerPhase where
  /-- It waits, and then connects again. -/
  | waiting
  /-- It stopped for good. -/
  | failed (e : ClientError)
  /-- It stands still in the middle of a connection. -/
  | stuck
deriving DecidableEq

/-- A worker between two connections. -/
structure Worker (ε : Type) where
  cursor : Sequence
  /-- The delay before the connection after the next, if the next delivers nothing. -/
  delay : Nat
  /-- The changes delivered so far, in order. -/
  delivered : List (Change ε) := []
  log : List LogEntry := []
  /-- The requests sent so far, in order. -/
  requests : List Request := []
  phase : WorkerPhase := .waiting

/-- The position of the last of some changes that has one, or else a given position. -/
def lastPosition {ε : Type} (start : Sequence) (changes : List (Change ε)) : Sequence :=
  changes.foldl (fun cursor change => change.seq.getD cursor) start

namespace Visit

variable {ε : Type}

/-- The connection with one more change, which comes first. -/
def deliver (entry : Option LogEntry) (change : Change ε) (v : Visit ε) : Visit ε :=
  { v with changes := change :: v.changes, log := entry.toList ++ v.log }

/-- The connection with one more line that is passed over, which comes first. -/
def skip (entry : Option LogEntry) (v : Visit ε) : Visit ε := { v with log := entry.toList ++ v.log }

/-- A connection that reads some lines and then ends. -/
def ofLines (l : LineReader ε) (ending : VisitEnd) : List (List Char) → Visit ε
  | [] => ⟨[], [], ending⟩
  | line :: rest =>
    match l.judge line with
    | .skip entry => (ofLines l ending rest).skip entry
    | .deliver entry change => (ofLines l ending rest).deliver entry change
    | .fail e => ⟨[], [], .failed e⟩

/-- A connection whose body is read to its end. -/
def ofStream (l : LineReader ε) (idle : Nat) (s : LineStream) : Visit ε :=
  ofLines l
    (match s.ending with
      | .closed => .closed
      | .failed => .interrupted .readFailed
      | .quiet => .interrupted (.noData idle))
    s.lines

/-- A connection that is given up at once. -/
def interrupted (reason : Interruption) : Visit ε := ⟨[], [], .interrupted reason⟩

/-- A connection, given what becomes of its request. -/
def ofAnswer (l : LineReader ε) (idle : Nat) : Answer → Visit ε
  | .refused => interrupted .connectFailed
  | .silent => interrupted (.noResponse idle)
  | .answered status body ending =>
    if status = 200 then ofStream l idle (LineStream.ofBody body ending)
    else if status ∈ bodilessStatuses then interrupted (.unexpectedStatus status "")
    else
      match ending with
      | .closed => interrupted (.unexpectedStatus status (String.ofList (Text.decodeReplacing body)))
      | .cut => interrupted (.unexpectedStatus status "")
      | .stalled => ⟨[], [], .endless⟩

end Visit

namespace Feed

variable {ε : Type}

/-- The request of a connection that starts at a position; none where the base URL is no absolute http URL. -/
def requestAt (f : Feed ε) (since : Sequence) : Option Request :=
  f.client.request? .post [f.database.text, "_changes"] (some (f.request.query since)) (some f.request.body)

/-- How the lines of the feed are read. -/
def lineReader (f : Feed ε) : LineReader ε :=
  ⟨f.request.includeDocs, f.client.settings.classField, f.dispatch⟩

/-- How long nothing may arrive. -/
def idleTime (f : Feed ε) : Nat := f.request.idleTime f.settings

/-- A connection that starts at a position, given what becomes of its request. -/
def visit (f : Feed ε) (since : Sequence) (answer : Answer) : Visit ε :=
  Visit.ofAnswer f.lineReader f.idleTime (if (f.requestAt since).isSome then answer else .refused)

/-- The requests that a connection brings to the server. -/
def arrivals (f : Feed ε) (since : Sequence) (answer : Answer) : List Request :=
  if answer.arrived then (f.requestAt since).toList else []

/-- The worker before its first connection. -/
def start (f : Feed ε) : Worker ε := { cursor := f.request.since, delay := f.settings.reconnectDelay }

/-- The delay before the next connection, after one that delivered so many changes. -/
def pause (f : Feed ε) (w : Worker ε) (delivered : Nat) : Nat :=
  if delivered = 0 then w.delay else f.settings.reconnectDelay

/-- The delay after a delay. -/
def nextDelay (f : Feed ε) (delay : Nat) : Nat := min (delay * 2) f.settings.maxReconnectDelay

/-- The worker after one more connection, given what becomes of its request. -/
def step (f : Feed ε) (w : Worker ε) (answer : Answer) : Worker ε :=
  match w.phase with
  | .waiting =>
    let v := f.visit w.cursor answer
    let pause := f.pause w v.changes.length
    let (entries, phase) : List LogEntry × WorkerPhase := match v.ending with
      | .closed => ([.closedByServer pause], .waiting)
      | .interrupted reason => ([.interrupted pause reason], .waiting)
      | .failed e => ([.stopped e], .failed e)
      | .endless => ([], .stuck)
    { cursor := lastPosition w.cursor v.changes
      delay := f.nextDelay pause
      delivered := w.delivered ++ v.changes
      log := w.log ++ [.connecting w.cursor] ++ v.log ++ entries
      requests := w.requests ++ f.arrivals w.cursor answer
      phase }
  | _ => w

/-- The worker after so many connections. -/
def run (f : Feed ε) (answers : List Answer) : Worker ε := answers.foldl f.step f.start

/-- The worker after so many connections, unless it had enough before. -/
def runUntil (f : Feed ε) (enough : Worker ε → Bool) (answers : List Answer) : Worker ε :=
  answers.foldl (fun w answer => if enough w then w else f.step w answer) f.start

/-- The delays that the worker waits after its connections, in order. -/
def pauses (f : Feed ε) : Worker ε → List Answer → List Nat
  | _, [] => []
  | w, answer :: rest =>
    match w.phase with
    | .waiting =>
      let next := f.step w answer
      let here := match next.phase with
        | .waiting => [f.pause w (f.visit w.cursor answer).changes.length]
        | _ => []
      here ++ f.pauses next rest
    | _ => []

end Feed

namespace Client

variable {ε : Type}

/-- A database to be followed has a name, and so has every wanted document. -/
def checkFeed (db : DatabaseName) (request : FeedRequest) : Outcome Unit := do
  forbid db.isBlank .blankDatabase
  forbid (request.docIds.any DocId.isBlank) .blankFollowedId

/-- Follows a database. -/
def follow (c : Client) (db : DatabaseName) (request : FeedRequest) (dispatch : Dispatch ε)
    (settings : FeedSettings) : Outcome (Feed ε) := do
  checkFeed db request
  return ⟨c, db, request, dispatch, settings⟩

/-- Follows the database of an entity type. -/
def followType {α : Type} (c : Client) (T : EntityType α) (request : FeedRequest) : Prepared (Feed α) := do
  let route ← Routes.require T.name
  .of (c.follow route.database request (Dispatch.single T route) {})

end Client
end DocClient
