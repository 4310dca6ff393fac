/-
# Asking for a change feed

A change feed is a request whose reply never ends: one line for each change to a database. `FeedRequest` says which
changes are wanted and where the feed starts; every connection after the first one starts at the cursor instead.

`FeedSettings` says how the client keeps a feed going: the delay before it connects again, which doubles up to a bound,
how long it waits for something to arrive, and how many changes wait for the consumer.
-/

import DocClient.Identifier
import DocClient.Json.Record

namespace DocClient

/-- Which leaf revisions a change lists. -/
inductive LeafStyle where
  /-- The winning one. -/
  | mainOnly
  /-- All of them. -/
  | allDocs
deriving DecidableEq, Repr

/-- The greatest interval between two signs of life, in milliseconds. -/
def maxHeartbeat : Nat := 0xFFFFFFFFFFFFFFFF

/-- Which changes are wanted. -/
structure FeedRequest where
  /-- Only these documents, if there are any. -/
  docIds : List DocId := []
  conflicts : Bool := false
  descending : Bool := false
  filter : Option String := none
  /-- The interval between two signs of life, in milliseconds. -/
  heartbeat : Nat := 60000
  includeDocs : Bool := false
  attachments : Bool := false
  attEncodingInfo : Bool := false
  lastEventId : Option Sequence := none
  limit : Option Nat := none
  /-- Where the first connection starts. -/
  since : Sequence := .now
  style : LeafStyle := .mainOnly
  timeout : Option Nat := none
  view : Option String := none
  seqInterval : Option Nat := none
deriving DecidableEq, Repr

/-- How a feed is kept going; times are in milliseconds. -/
structure FeedSettings where
  /-- The first delay before connecting again. -/
  reconnectDelay : Nat := 2000
  /-- The bound for the delay. -/
  maxReconnectDelay : Nat := 30000
  /-- How long nothing may arrive; if it is not set, twice the heartbeat. -/
  idleTimeout : Option Nat := none
  /-- How many changes may wait for the consumer. -/
  channelCapacity : Nat := 64
deriving DecidableEq, Repr

namespace LeafStyle

/-- The styles by name. -/
def names : List (String × LeafStyle) := [("main_only", .mainOnly), ("all_docs", .allDocs)]

/-- The name of a style. -/
def text : LeafStyle → String
  | .mainOnly => "main_only"
  | .allDocs => "all_docs"

/-- Reads a style. -/
def reader : Reader LeafStyle := Reader.choice names

end LeafStyle

namespace FeedRequest

/-- The request with a heartbeat of so many milliseconds, or the greatest one. -/
def withHeartbeat (r : FeedRequest) (milliseconds : Nat) : FeedRequest :=
  { r with heartbeat := min milliseconds maxHeartbeat }

/-- The filter: one that was asked for, or else the one by name if there are names. -/
def effectiveFilter (r : FeedRequest) : Option String :=
  match r.filter with
  | some filter => some filter
  | none => if r.docIds.isEmpty then none else some "_doc_ids"

/-- The switches, by their names in a query. -/
def switches (r : FeedRequest) : List (String × Bool) :=
  [("conflicts", r.conflicts), ("descending", r.descending), ("include_docs", r.includeDocs),
    ("attachments", r.attachments), ("att_encoding_info", r.attEncodingInfo)]

/-- The numbers, by their names in a query. -/
def numbers (r : FeedRequest) : List (String × Option Nat) :=
  [("limit", r.limit), ("timeout", r.timeout), ("seq_interval", r.seqInterval)]

/-- The pairs of the query of a connection that starts at a position. -/
def query (r : FeedRequest) (since : Sequence) : List (String × String) :=
  [("feed", "continuous"), ("heartbeat", toString r.heartbeat), ("since", since.text), ("style", r.style.text)]
    ++ (r.switches.filter Prod.snd).map (fun s => (s.1, "true"))
    ++ (r.effectiveFilter.map fun filter => ("filter", filter)).toList
    ++ (r.lastEventId.map fun id => ("last-event-id", id.text)).toList
    ++ r.numbers.filterMap (fun n => n.2.map fun value => (n.1, toString value))
    ++ (r.view.map fun view => ("view", view)).toList

/-- The body: the names of the wanted documents, or an empty object. -/
def body (r : FeedRequest) : Json :=
  if r.docIds.isEmpty then .obj [] else Json.ofMembers [("doc_ids", Json.ofStrings (r.docIds.map DocId.text))]

/-- How long nothing may arrive, in milliseconds. -/
def idleTime (r : FeedRequest) (s : FeedSettings) : Nat :=
  s.idleTimeout.getD (min (2 * max r.heartbeat 1) maxHeartbeat)

end FeedRequest
end DocClient
