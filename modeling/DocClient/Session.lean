/-
# Sessions

A session is a list of steps that one client takes, each with a script of what becomes of its requests. A step sees what
the steps before it left behind only in the routes of the entity types.
-/

import DocClient.Entity.Stock
import DocClient.Feed.Handler
import DocClient.Store.Batch
import DocClient.Store.View

namespace DocClient

/-- What a document of some class is decoded to. -/
inductive Dispatched where
  | entity (kind : EntityKind) (e : StockEntity)
  /-- A document of another class. -/
  | other (document : Object)
deriving DecidableEq, Repr

/-- The decoded document as a value. -/
def Dispatched.toJson : Dispatched → Json
  | .entity kind e => Json.ofMembers [("type", .str kind.text), ("value", e.toJson)]
  | .other document => Json.ofMembers [("fallback", .obj document)]

/-- Which classes a dispatch knows: kinds of entities, each under a class or under the one of its route. -/
structure DispatchPlan where
  kinds : List (EntityKind × Option ClassName) := []
  fallback : Bool := false
deriving DecidableEq, Repr

namespace DispatchPlan

/-- Adds the documents of one kind to a dispatch. -/
def add (d : Dispatch Dispatched) (entry : EntityKind × Option ClassName) : Prepared (Dispatch Dispatched) := do
  let className ← match entry.2 with
    | some className => pure className
    | none => (·.className) <$> Routes.require entry.1.type.name
  return d.insert entry.1.type (.entity entry.1) className

/-- The dispatch of a plan. -/
def dispatch (p : DispatchPlan) : Prepared (Dispatch Dispatched) := do
  let d ← p.kinds.foldlM add {}
  return if p.fallback then d.withFallback .other else d

end DispatchPlan

/-- What the values of a view are decoded to. -/
inductive ValueKind where
  | json
  | int64
  | text
  | entity (kind : EntityKind)
deriving DecidableEq, Repr

/-- Reads a value of a kind and writes it again. -/
def ValueKind.reader : ValueKind → Reader Json
  | .json => Reader.json
  | .int64 => fun o d => (Reader.int64 o d).map Json.ofInt
  | .text => fun o d => (Reader.text o d).map .str
  | .entity kind => fun o d => (kind.reader o d).map StockEntity.toJson

/-- How the changes of a feed are taken. -/
inductive FeedMode where
  /-- One by one, documents of any class. -/
  | pull (db : DatabaseName) (documents : DispatchPlan) (settings : FeedSettings)
  /-- One by one, from the database of an entity type. -/
  | typed (kind : EntityKind)
  /-- By a handler that breaks down on documents whose name has a given beginning. -/
  | push (db : DatabaseName) (documents : DispatchPlan) (settings : FeedSettings) (breaks : String)
deriving DecidableEq, Repr

/-- When a feed is cancelled. -/
inductive CancelPoint where
  /-- When the request after the last answer has arrived. -/
  | nextRequest
  /-- In the delay after the last answer. -/
  | disconnect
deriving DecidableEq, Repr

/-- A step of a session. -/
inductive Step where
  | register (kind : EntityKind) (r : Registration)
  | isRegistered (kind : EntityKind)
  | resolve (kind : EntityKind)
  | get (kind : EntityKind) (id : DocId) (options : ReadOptions)
  | getWithSystem (kind : EntityKind) (id : DocId) (options : ReadOptions)
  | insert (kind : EntityKind) (e : StockEntity)
  | update (kind : EntityKind) (e : StockEntity)
  | upsert (kind : EntityKind) (e : StockEntity)
  | upsertWith (kind : EntityKind) (e : StockEntity) (options : WriteOptions)
  | deleteEntity (kind : EntityKind) (e : StockEntity) (batch : Bool)
  | delete (db : DatabaseName) (id : DocId) (revision : Revision) (batch : Bool)
  | writeBatch (kind : EntityKind) (upserts : List StockEntity) (deletions : List Deletion)
  | writeBatchIn (kind : EntityKind) (db : DatabaseName) (upserts : List StockEntity) (deletions : List Deletion)
  | readBatch (kind : EntityKind) (ids : List DocId)
  | readBatchIn (db : DatabaseName) (ids : List DocId) (documents : DispatchPlan)
  | getDesign (db : DatabaseName) (id : DocId)
  | getDesignWithSystem (db : DatabaseName) (id : DocId) (options : ReadOptions)
  | upsertDesign (db : DatabaseName) (d : DesignDocument)
  | deleteDesign (db : DatabaseName) (id : DocId) (revision : Revision) (batch : Bool)
  | rawView (db : DatabaseName) (design : DocId) (view : String) (request : ViewRequest)
  | view (db : DatabaseName) (design : DocId) (view : String) (request : ViewRequest) (values : ValueKind)
  | feed (mode : FeedMode) (request : FeedRequest) (cancel : CancelPoint)
deriving DecidableEq

/-- What became of a feed up to its end. -/
structure FeedReport where
  /-- The changes that were taken. -/
  changes : List (Change Json)
  cursor : Sequence
  /-- Why the feed failed, if it did. -/
  failure : Option ClientError
  log : List LogEntry
  /-- How often the handler broke down, where there is one. -/
  breakdowns : Option Nat
deriving DecidableEq

/-- The result of a step. -/
inductive StepResult where
  | done
  | flag (on : Bool)
  | route (r : Route)
  | entity (e : Option StockEntity)
  | found (system : SystemFields) (e : Option StockEntity)
  | written (w : Written StockEntity)
  | deleted (r : WriteReply)
  | batchWritten (kind : EntityKind) (b : BatchWritten StockEntity)
  | batchRead (b : BatchRead StockEntity)
  | batchReadIn (b : BatchRead Dispatched)
  | design (d : Option DesignDocument)
  | designFound (system : SystemFields) (d : Option DesignDocument)
  | designWritten (w : Written DesignDocument)
  | rawRows (r : RawRows)
  | rows (r : ViewRows Json)
  | feed (r : FeedReport)

/-- What a step came to: its result, and the requests that arrived. -/
structure StepReport where
  result : Outcome StepResult
  requests : List Request

/-- A step with what becomes of its requests. -/
structure ScriptedStep where
  step : Step
  /-- The answers in order; a request without one finds no server. -/
  answers : List Answer
deriving DecidableEq

namespace FeedReport

variable {ε : Type}

/-- The log of a worker up to the cancellation of its feed. -/
def logUntilCancelled (w : Worker ε) (cancel : CancelPoint) : List LogEntry :=
  w.log ++ match w.phase, cancel with
    | .failed _, _ => []
    | .stuck, _ => [.cancelled]
    | .waiting, .disconnect => [.cancelled]
    | .waiting, .nextRequest => [.connecting w.cursor, .cancelled]

/-- Why a worker failed, if it did. -/
def failureOf (w : Worker ε) : Option ClientError :=
  match w.phase with
  | .failed e => some e
  | _ => none

/-- The requests of a worker up to the cancellation of its feed. -/
def requestsUntilCancelled (f : Feed ε) (w : Worker ε) (cancel : CancelPoint) : List Request :=
  w.requests ++ match w.phase, cancel with
    | .waiting, .nextRequest => (f.requestAt w.cursor).toList
    | _, _ => []

/-- A feed whose changes are taken one by one until it is cancelled or fails. -/
def pull (toJson : ε → Json) (f : Feed ε) (cancel : CancelPoint) (answers : List Answer) :
    FeedReport × List Request :=
  let w := f.run answers
  ({ changes := w.delivered.map (Change.map toJson), cursor := w.cursor, failure := failureOf w
     log := logUntilCancelled w cancel, breakdowns := none },
    requestsUntilCancelled f w cancel)

/-- A feed whose changes are taken by a handler until it is cancelled or fails. -/
def push (toJson : ε → Json) (handler : Handler ε) (f : Feed ε) (cancel : CancelPoint) (answers : List Answer) :
    FeedReport × List Request :=
  let w := f.run answers
  let loop := (HandlerLoop.finished handler (Subscription.ofFeed f answers)).getD
    { subscription := Subscription.ofFeed f answers }
  ({ changes := loop.taken.map (Change.map toJson), cursor := w.cursor, failure := failureOf w
     log := logUntilCancelled w cancel, breakdowns := some loop.breakdowns },
    requestsUntilCancelled f w cancel)

end FeedReport

namespace Session

/-- A call of a step, and what its result is as a result of the step. -/
def single {α : Type} (p : Plan α) (wrap : α → StepResult) (answers : List Answer) (routes : Routes) :
    StepReport × Routes :=
  let (call, routes) := p routes
  let answer := answers.head?.getD .refused
  ({ result := (call.result answer).map wrap
     requests := if answer.arrived then call.request?.toList else [] }, routes)

/-- A plan that first makes a dispatch. -/
def withDispatch {α : Type} (documents : DispatchPlan) (p : Dispatch Dispatched → Plan α) : Plan α := fun routes =>
  match documents.dispatch.run.run routes with
  | (.ok d, routes) => p d routes
  | (.error e, routes) => (.done (.error e), routes)

/-- A feed of a step. -/
def feed {ε : Type} (prepared : Prepared (Feed ε)) (report : Feed ε → FeedReport × List Request)
    (routes : Routes) : StepReport × Routes :=
  match prepared.run.run routes with
  | (.ok f, routes) => let (r, requests) := report f; (⟨.ok (.feed r), requests⟩, routes)
  | (.error e, routes) => (⟨.error e, []⟩, routes)

/-- A feed of documents of any class. -/
def prepareFeed (c : Client) (db : DatabaseName) (documents : DispatchPlan) (request : FeedRequest)
    (settings : FeedSettings) : Prepared (Feed Dispatched) := do
  let d ← documents.dispatch
  .of (c.follow db request d settings)

/-- One step. -/
def step (c : Client) (routes : Routes) (s : ScriptedStep) : StepReport × Routes :=
  match s.step with
  | .register kind r =>
    match routes.register kind.type.name r with
    | .ok routes => (⟨.ok .done, []⟩, routes)
    | .error e => (⟨.error e, []⟩, routes)
  | .isRegistered kind => (⟨.ok (.flag (routes.isRegistered kind.type.name)), []⟩, routes)
  | .resolve kind =>
    match routes.resolve kind.type.name with
    | .ok (route, routes) => (⟨.ok (.route route), []⟩, routes)
    | .error e => (⟨.error e, []⟩, routes)
  | .get kind id options => single (c.get kind.type id options) .entity s.answers routes
  | .getWithSystem kind id options =>
    single (c.getWithSystem kind.type id options) (fun found => .found found.1 found.2) s.answers routes
  | .insert kind e => single (c.insert kind.type e) .written s.answers routes
  | .update kind e => single (c.update kind.type e) .written s.answers routes
  | .upsert kind e => single (c.upsert kind.type e) .written s.answers routes
  | .upsertWith kind e options => single (c.upsertWith kind.type e options) .written s.answers routes
  | .deleteEntity kind e batch => single (c.deleteEntity kind.type e batch) .deleted s.answers routes
  | .delete db id revision batch => single (c.delete db id revision batch) .deleted s.answers routes
  | .writeBatch kind upserts deletions =>
    single (c.writeBatch kind.type upserts deletions) (.batchWritten kind) s.answers routes
  | .writeBatchIn kind db upserts deletions =>
    single (c.writeBatchIn kind.type db upserts deletions) (.batchWritten kind) s.answers routes
  | .readBatch kind ids => single (c.readBatch kind.type ids) .batchRead s.answers routes
  | .readBatchIn db ids documents =>
    single (withDispatch documents (c.readBatchIn db ids)) .batchReadIn s.answers routes
  | .getDesign db id => single (c.getDesign db id) .design s.answers routes
  | .getDesignWithSystem db id options =>
    single (c.getDesignWithSystem db id options) (fun found => .designFound found.1 found.2) s.answers routes
  | .upsertDesign db d => single (c.upsertDesign db d) .designWritten s.answers routes
  | .deleteDesign db id revision batch => single (c.deleteDesign db id revision batch) .deleted s.answers routes
  | .rawView db design view request => single (c.rawView db design view request) .rawRows s.answers routes
  | .view db design view request values =>
    single (c.view values.reader db design view request) .rows s.answers routes
  | .feed (.pull db documents settings) request cancel =>
    feed (prepareFeed c db documents request settings)
      (fun f => FeedReport.pull Dispatched.toJson f cancel s.answers) routes
  | .feed (.typed kind) request cancel =>
    feed (c.followType kind.type request) (fun f => FeedReport.pull StockEntity.toJson f cancel s.answers) routes
  | .feed (.push db documents settings breaks) request cancel =>
    feed (prepareFeed c db documents request settings)
      (fun f => FeedReport.push Dispatched.toJson (fun _ change => (Envelope.dropPrefix? breaks change.id.text).isSome)
        f cancel s.answers)
      routes

/-- Some steps in order. -/
def steps (c : Client) : Routes → List ScriptedStep → List StepReport
  | _, [] => []
  | routes, s :: rest =>
    let (report, routes) := step c routes s
    report :: steps c routes rest

/-- A session of a client. -/
def run (c : Client) (script : List ScriptedStep) : List StepReport := steps c c.routes script

end Session
end DocClient
