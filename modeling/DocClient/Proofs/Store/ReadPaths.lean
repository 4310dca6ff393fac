/-
# All ways to read a document

A stored document reaches a client in four ways, and each takes it apart in its own order:

| way | before the entity is decoded | a document that cannot be decoded fails |
| --- | --- | --- |
| a read of its own | the server's members are split off and read | the read |
| a row of a view, with documents | | the view |
| an entry of a batch of reads | deletions are told apart, and the class says which type | the batch |
| a change of a feed, with documents | deletions are told apart, and the class says which type | the feed |

For a live document of a type all four come to what decoding the document comes to (`reads_alike`), for every class
field: the server's members are nothing to the entity, wherever they are left out. What a reply or a line brings is what
is read of its text, in whatever order its members stand; a text that nests too deep brings nothing.
-/

import DocClient.Proofs.Dispatch
import DocClient.Proofs.Feed.Connections
import DocClient.Proofs.Store.Found
import DocClient.Store.View

namespace DocClient

namespace Envelope

variable {document : Object} {key : String}

/-- A key is one that the server looks after. -/
def IsServers (key : String) : Prop := isSystem key = true ∧ key ≠ "_id" ∧ key ≠ "_rev"

/-- **A document is split into what the server looks after and the rest:** each key is with its value in one of the two
parts, and in no other. -/
theorem get?_split (hs : document.Sorted) (key : String) :
    (IsServers key ∧ (split document).1.get? key = document.get? key ∧ (split document).2.get? key = none)
      ∨ (¬ IsServers key ∧ (split document).1.get? key = none ∧ (split document).2.get? key = document.get? key) := by
  rw [split, List.partition_eq_filter_filter, Table.get?_filter hs, Table.get?_filter hs]
  by_cases hkey : IsServers key
  · obtain ⟨hsystem, hid, hrev⟩ := hkey
    refine .inl ⟨⟨hsystem, hid, hrev⟩, ?_, ?_⟩ <;> cases document.get? key <;> simp [Option.filter, hsystem, hid, hrev]
  · have hnot : (isSystem key && key != "_id" && key != "_rev") = false := by
      simpa [IsServers, and_assoc] using hkey
    refine .inr ⟨hkey, ?_, ?_⟩ <;> cases document.get? key <;> simp [Option.filter, hnot]

/-- A member that is left out when members are renamed may as well be another or not be there. -/
theorem rename_insert_of_none {name? : String → Json → Option String} (h : ∀ v, name? key v = none) (o : Object)
    (v : Json) : rename name? (o.insert key v) = rename name? o := by
  have hkey : ∀ v, (name? key v).map (fun name => (name, v)) = none := fun v => by rw [h v, Option.map_none]
  refine congrArg Table.ofList ?_
  induction o with
  | nil => simp [Table.insert, hkey]
  | cons e rest ih =>
    obtain ⟨k, w⟩ := e
    rw [Table.insert]
    split
    · simp [hkey]
    · split
      · rename_i heq
        subst heq
        simp [hkey]
      · rw [List.filterMap_cons, List.filterMap_cons, ih]

/-- **A member that the server looks after is nothing to the entity.** -/
theorem decode_insert {α : Type} (r : Reader α) {classField : String} (hkey : IsServers key)
    (document : Object) (v : Json) :
    decode r classField (document.insert key v) = decode r classField document := by
  have hnone : ∀ v : Json, (fun key (_ : Json) => incoming? (some classField) key) key v = none := by
    intro _
    simp [incoming?, hkey.1, hkey.2.1, hkey.2.2]
  rw [decode, decode, domain, rename_insert_of_none hnone, domain]

end Envelope

namespace Outcome

variable {α ε : Type}

/-- The values of some steps, none of which fails, and of further steps. -/
theorem collect_append {earlier : List (Except ε α)} (h : (collect earlier).2 = none) (later : List (Except ε α)) :
    collect (earlier ++ later) = ((collect earlier).1 ++ (collect later).1, (collect later).2) := by
  induction earlier with
  | nil => rfl
  | cons x rest ih =>
    cases x with
    | error e => exact nomatch h
    | ok a => simp [collect, ih h]

end Outcome

namespace BatchRead

variable {ε : Type}

/-- What comes of a batch with one document more between some entries, given what the document comes to. -/
def around (D : Dispatch ε) (classField : String) (before after : List (String × BatchEntry)) (outcome : Outcome ε) :
    Outcome (BatchRead ε) := do
  let earlier ← ofEntries D classField before
  let e ← outcome
  let later ← ofEntries D classField after
  return ⟨earlier.entities ++ e :: later.entities, earlier.errors ++ later.errors, earlier.deleted ++ later.deleted⟩

/-- **A live document in a batch comes to what it is decoded as.** -/
theorem ofEntries_around (D : Dispatch ε) (classField : String) (before after : List (String × BatchEntry))
    (id : String) {d : Object} (hlive : Envelope.isTombstone d = false) :
    ofEntries D classField (before ++ (id, .document d) :: after)
      = around D classField before after (D.decode d classField) := by
  have hlives : (before ++ (id, .document d) :: after).filterMap BatchEntry.live?
      = before.filterMap BatchEntry.live? ++ d :: after.filterMap BatchEntry.live? := by
    simp [BatchEntry.live?, hlive]
  have hfailures : (before ++ (id, .document d) :: after).filterMap BatchEntry.failure?
      = before.filterMap BatchEntry.failure? ++ after.filterMap BatchEntry.failure? := by
    rw [List.filterMap_append]
    rfl
  have hgone : (before ++ (id, .document d) :: after).filterMap BatchEntry.gone?
      = before.filterMap BatchEntry.gone? ++ after.filterMap BatchEntry.gone? := by
    simp [BatchEntry.gone?, hlive]
  rw [around, ofEntries_eq, ofEntries_eq, ofEntries_eq, hlives, hfailures, hgone, Outcome.mapM_append_cons]
  cases (before.filterMap BatchEntry.live?).mapM fun d => D.decode d classField with
  | error e => rfl
  | ok earlier =>
    cases D.decode d classField with
    | error e => rfl
    | ok e => cases (after.filterMap BatchEntry.live?).mapM fun d => D.decode d classField <;> rfl

end BatchRead

namespace ViewRows

variable {β : Type}

/-- What comes of the rows of a view with one row more between them, given what its document comes to. -/
def around (r : Reader β) (classField : String) (raw : RawRows) (before : List RawRow) (row : RawRow)
    (after : List RawRow) (outcome : Outcome β) : Outcome (ViewRows β) := do
  let earlier ← before.mapM (RawRow.decode r classField true)
  let e ← outcome
  let later ← after.mapM (RawRow.decode r classField true)
  return ⟨earlier ++ ⟨row.id, row.key, some e⟩ :: later, raw.offset, raw.totalRows, raw.updateSeq⟩

/-- **A document in a row comes to what it is decoded as.** -/
theorem decodeRows_around (c : Client) (r : Reader β) {raw : RawRows} {before after : List RawRow} {row : RawRow}
    {d : Object} (hrows : raw.rows = before ++ row :: after) (hdoc : row.doc = some d) :
    c.decodeRows r true raw
      = around r c.settings.classField raw before row after (Envelope.decode r c.settings.classField d) := by
  have hrow : RawRow.decode r c.settings.classField true row
      = (Envelope.decode r c.settings.classField d).map fun b => ⟨row.id, row.key, some b⟩ := by
    simp [RawRow.decode, hdoc]
  rw [Client.decodeRows, hrows, Outcome.mapM_append_cons, around, hrow]
  cases before.mapM (RawRow.decode r c.settings.classField true) with
  | error e => rfl
  | ok earlier =>
    cases Envelope.decode r c.settings.classField d with
    | error e => rfl
    | ok e => cases after.mapM (RawRow.decode r c.settings.classField true) <;> rfl

end ViewRows

namespace Call

variable {α β : Type}

/-- A call is sent, and what becomes of it brings a value: the status is 200, and the value is read of the text. -/
structure Brings (call : Call α) (answer : Answer) (r : Reader β) (b : β) : Prop where
  sent : call.request?.isSome
  replied : ∃ text, answer.reply? = some ⟨200, text⟩ ∧ Reader.ofText r text.toList = .ok b

/-- What a call comes to that is brought a value. -/
theorem Takes.result_eq {method : Method} {receive : Reply → Outcome α} {call : Call α}
    (h : call.Takes method receive) {answer : Answer} {r : Reader β} {b : β} (hbrings : call.Brings answer r b)
    {outcome : Outcome α}
    (houtcome : ∀ text, Reader.ofText r text.toList = .ok b → receive ⟨200, text⟩ = outcome) :
    call.result answer = outcome := by
  obtain ⟨text, hreply, hread⟩ := hbrings.replied
  obtain ⟨request, hrequest⟩ := Option.isSome_iff_exists.1 hbrings.sent
  rw [(h.result_of_sent hrequest hreply).2]
  exact houtcome text hread

end Call

namespace Client

variable {α β ε : Type} {c : Client} {T : EntityType α} {routes : Routes}

theorem takes_getWithSystem (id : DocId) (options : ReadOptions) :
    (c.getWithSystem T id options routes).1.Takes .get fun reply =>
      (readReply reply).bind (decodeFound (Envelope.decode T.reader c.settings.classField)) := by
  refine Plan.of_makes (fun _ => .done _) (Prepared.makes_bind fun _ => Prepared.makes_bind fun _ => ?_) routes
  exact Prepared.makes_pure ((takes_call ..).andThen _)

theorem takes_rawView (db : DatabaseName) (design : DocId) (name : String) (request : ViewRequest) :
    (c.rawView db design name request routes).1.Takes .post viewReply := by
  refine Plan.of_makes (fun _ => .done _) (Prepared.makes_bind fun _ => Prepared.makes_bind fun _ => ?_) routes
  exact Prepared.makes_pure (takes_call ..)

end Client

namespace ChangeRecord

/-- A line is a change with a document, and no deletion. -/
structure Carries (line : List Char) (r : ChangeRecord) (d : Object) : Prop where
  read : ofLine? line = some r
  doc : r.doc = some d
  live : r.deleted = false

end ChangeRecord

namespace LineReader

variable {ε : Type} (l : LineReader ε)

/-- What comes of some lines with a change between them, given what the change comes to. -/
def around (before after : List (List Char)) : Outcome (Change ε) → List (Change ε) × Option ClientError
  | .ok change => ((l.read before).1 ++ change :: (l.read after).1, (l.read after).2)
  | .error e => ((l.read before).1, some e)

/-- A change between some lines, none of the earlier of which fails, comes to what is made of it. -/
theorem read_around {before : List (List Char)} {line : List Char} {r : ChangeRecord} (after : List (List Char))
    (hline : ChangeRecord.ofLine? line = some r) (hbefore : (l.read before).2 = none) :
    l.read (before ++ line :: after) = l.around before after (l.change r) := by
  rw [read, List.filterMap_append, List.filterMap_cons_some hline, List.map_append, List.map_cons,
    Outcome.collect_append hbefore]
  cases l.change r <;> simp [Outcome.collect, around, read]

/-- **A change comes to what its document is decoded as.** -/
theorem change_of_carries {line : List Char} {r : ChangeRecord} {d : Object} (h : ChangeRecord.Carries line r d)
    (hdocs : l.includeDocs = true) {className : String} (hclass : d.get? l.classField = some (.str className)) :
    l.change r = (l.dispatch.decode d l.classField).map fun e => r.withDoc (some e) := by
  have hwanted : l.wanted? r = some d := by
    rw [wanted?, h.doc, h.live, hdocs, Option.filter_eq_some_iff]
    simp [Envelope.classOf?_eq_some.2 hclass]
  rw [change, hwanted]

end LineReader

namespace Client

variable {α : Type} (c : Client) (T : EntityType α) (routes : Routes) (route : Route) (d : Object)
  (system : SystemFields)

/-- A live document of a type that has its route, named by its class; what the server looks after in it can be read. -/
structure Finds : Prop where
  routed : ∃ after, routes.resolve T.name = .ok (route, after)
  sorted : d.Sorted
  named : d.get? c.settings.classField = some (.str route.className.text)
  live : Envelope.isTombstone d = false
  readable : SystemFields.reader.ofJson (.obj (Envelope.split d).1) = .ok system

/-- **Whatever way a document is read, it comes to a given outcome.** -/
structure ReadsAs (outcome : Outcome α) : Prop where
  /-- Reading it alone comes to the outcome. -/
  get : ∀ id options answer, (c.getWithSystem T id options routes).1.Brings answer Reader.object d →
    (c.getWithSystem T id options routes).1.result answer = outcome.map (fun e => (system, some e))
      ∧ (c.get T id options routes).1.result answer = outcome.map some
  /-- Among the rows of a view it comes to the outcome. -/
  view : ∀ db design name request answer raw before row after,
    (c.view T.reader db design name request routes).1.Brings answer RawRows.reader raw →
    request.includeDocs = true → raw.rows = before ++ row :: after → row.doc = some d →
      (c.view T.reader db design name request routes).1.result answer
        = ViewRows.around T.reader c.settings.classField raw before row after outcome
  /-- Among the entries of a batch for its type it comes to the outcome. -/
  batch : ∀ ids answer items before id after, (c.readBatch T ids routes).1.Brings answer BatchItem.listReader items →
    BatchRead.entries items = before ++ (id, .document d) :: after →
      (c.readBatch T ids routes).1.result answer
        = BatchRead.around (Dispatch.single T route) c.settings.classField before after outcome
  /-- Among the entries of a batch for several types, its own being the last under its class, it comes to the outcome
  in the wrapper of the type. -/
  batchIn : ∀ {ε : Type} (steps : List (Dispatch.Step ε)) (wrap : α → ε),
    Dispatch.Latest ⟨route.className, T, wrap⟩ (Dispatch.entriesOf steps) →
    ∀ db ids answer items before id after,
      (c.readBatchIn db ids (Dispatch.build steps) routes).1.Brings answer BatchItem.listReader items →
      BatchRead.entries items = before ++ (id, .document d) :: after →
        (c.readBatchIn db ids (Dispatch.build steps) routes).1.result answer
          = BatchRead.around (Dispatch.build steps) c.settings.classField before after (outcome.map wrap)
  /-- Among the lines of a connection that a feed with documents makes, after lines that do not fail, it comes to the
  outcome in that wrapper: the change is delivered with the entity, or the feed fails as decoding fails. -/
  feed : ∀ {ε : Type} (steps : List (Dispatch.Step ε)) (wrap : α → ε),
    Dispatch.Latest ⟨route.className, T, wrap⟩ (Dispatch.entriesOf steps) →
    ∀ (f : Feed ε) (w : Worker ε) (a : Arrival) (line : List Char) (r : ChangeRecord) before after,
      f.client = c → f.dispatch = Dispatch.build steps → f.request.includeDocs = true → f.isReachable = true →
      w.phase = .waiting → a.lines = before ++ line :: after → (f.lineReader.read before).2 = none →
      ChangeRecord.Carries line r d →
        (∀ e, outcome = .ok e → (f.step w a.answer).delivered = w.delivered
            ++ ((f.lineReader.read before).1 ++ r.withDoc (some (wrap e)) :: (f.lineReader.read after).1))
        ∧ ∀ fault, outcome = .error fault → (f.step w a.answer).phase = .failed fault
            ∧ (f.step w a.answer).delivered = w.delivered ++ (f.lineReader.read before).1

variable {c T routes route d system}

/-- A document that is found is read alone as what it is decoded as. -/
theorem Finds.get (h : c.Finds T routes route d system) (id : DocId) (options : ReadOptions) {answer : Answer}
    (hbrings : (c.getWithSystem T id options routes).1.Brings answer Reader.object d) :
    (c.getWithSystem T id options routes).1.result answer
      = (Envelope.decode T.reader c.settings.classField d).map fun e => (system, some e) := by
  refine (takes_getWithSystem id options).result_eq hbrings fun text hread => ?_
  have hreply : readReply ⟨200, text⟩ = .ok (system, some (Envelope.split d).2) := by
    simp only [readReply, hread, Outcome.ok_bind, h.readable, Outcome.ofRead_ok, Outcome.pure_eq_ok]
  rw [hreply]
  simp only [Except.bind, decodeFound, Envelope.decode_split]

/-- A document is read among the rows of a view as what it is decoded as. -/
theorem result_view {db : DatabaseName} {design : DocId} {name : String} {request : ViewRequest} {answer : Answer}
    {raw : RawRows} {before after : List RawRow} {row : RawRow}
    (hbrings : (c.view T.reader db design name request routes).1.Brings answer RawRows.reader raw)
    (hdocs : request.includeDocs = true) (hrows : raw.rows = before ++ row :: after) (hdoc : row.doc = some d) :
    (c.view T.reader db design name request routes).1.result answer
      = ViewRows.around T.reader c.settings.classField raw before row after
          (Envelope.decode T.reader c.settings.classField d) := by
  refine ((takes_rawView db design name request).andThen _).result_eq hbrings fun text hread => ?_
  have hreply : viewReply ⟨200, text⟩ = .ok raw := by
    rw [viewReply, if_pos rfl, hread, Outcome.ofRead_ok]
  rw [hreply, hdocs]
  exact ViewRows.decodeRows_around c T.reader hrows hdoc

/-- A live document is read among the entries of a batch as what it is decoded as. -/
theorem result_batch {ε : Type} {D : Dispatch ε} {call : Call (BatchRead ε)} (hcall : call.Takes .post (c.batchRead D))
    {answer : Answer} {items : List BatchItem} {before after : List (String × BatchEntry)} {id : String}
    (hbrings : call.Brings answer BatchItem.listReader items)
    (hentries : BatchRead.entries items = before ++ (id, .document d) :: after)
    (hlive : Envelope.isTombstone d = false) :
    call.result answer
      = BatchRead.around D c.settings.classField before after (D.decode d c.settings.classField) := by
  refine hcall.result_eq hbrings fun text hread => ?_
  rw [batchRead, if_pos rfl, hread, Outcome.ofRead_ok, Outcome.ok_bind,
    ← BatchRead.ofEntries_around D _ _ _ id hlive, ← hentries]
  rfl

/-- A document that is found is decoded by the last type under its class. -/
theorem Finds.decode_build (h : c.Finds T routes route d system) {ε : Type} {steps : List (Dispatch.Step ε)}
    {wrap : α → ε} (hlatest : Dispatch.Latest ⟨route.className, T, wrap⟩ (Dispatch.entriesOf steps)) :
    (Dispatch.build steps).decode d c.settings.classField
      = (Envelope.decode T.reader c.settings.classField d).map wrap :=
  (Dispatch.agrees_build steps).decode_of_latest hlatest h.named

/-- It is read as that by a call that leaves out what the server looks after, too. -/
theorem Finds.get_entity (h : c.Finds T routes route d system) (id : DocId) (options : ReadOptions) {answer : Answer}
    (hbrings : (c.getWithSystem T id options routes).1.Brings answer Reader.object d) :
    (c.get T id options routes).1.result answer
      = (Envelope.decode T.reader c.settings.classField d).map some := by
  have hget : (c.get T id options routes).1
      = (c.getWithSystem T id options routes).1.andThen fun found => .ok found.2 := rfl
  rw [hget, Call.result_andThen, h.get id options hbrings]
  cases Envelope.decode T.reader c.settings.classField d <;> rfl

/-- A document that is found is decoded as it is by the dispatch for its type alone. -/
theorem Finds.decode_single (h : c.Finds T routes route d system) :
    (Dispatch.single T route).decode d c.settings.classField
      = Envelope.decode T.reader c.settings.classField d := by
  have hlatest : Dispatch.Latest ⟨route.className, T, fun e => e⟩
      (Dispatch.entriesOf [.insert ⟨route.className, T, fun e => e⟩]) := ⟨[], [], rfl, by simp⟩
  refine (h.decode_build hlatest).trans ?_
  cases Envelope.decode T.reader c.settings.classField d <;> rfl

/-- A batch of reads for a type that has its route is for the dispatch for that type alone. -/
theorem Finds.takes_readBatch (h : c.Finds T routes route d system) (ids : List DocId) :
    (c.readBatch T ids routes).1.Takes .post (c.batchRead (Dispatch.single T route)) := by
  obtain ⟨resolved, hresolve⟩ := h.routed
  simp only [readBatch, Routes.run_require hresolve]
  exact takes_readBatchIn ..

/-- A change with a document that is found is delivered as what the document is decoded as. -/
theorem Finds.change (h : c.Finds T routes route d system) {ε : Type} {steps : List (Dispatch.Step ε)} {wrap : α → ε}
    (hlatest : Dispatch.Latest ⟨route.className, T, wrap⟩ (Dispatch.entriesOf steps)) {l : LineReader ε}
    (hdispatch : l.dispatch = Dispatch.build steps) (hdocs : l.includeDocs = true)
    (hfield : l.classField = c.settings.classField) {line : List Char} {r : ChangeRecord}
    (hline : ChangeRecord.Carries line r d) :
    l.change r = (Envelope.decode T.reader c.settings.classField d).map fun e => r.withDoc (some (wrap e)) := by
  have hclass : d.get? l.classField = some (.str route.className.text) := hfield ▸ h.named
  rw [l.change_of_carries hline hdocs hclass, hfield, hdispatch, h.decode_build hlatest]
  cases Envelope.decode T.reader c.settings.classField d <;> rfl

/-- What a feed with documents makes of an arrival with a line that carries a document that is found. -/
theorem Finds.feed_outcome {ε : Type} {f : Feed ε} (h : f.client.Finds T routes route d system)
    {steps : List (Dispatch.Step ε)} {wrap : α → ε}
    (hlatest : Dispatch.Latest ⟨route.className, T, wrap⟩ (Dispatch.entriesOf steps))
    (hdispatch : f.dispatch = Dispatch.build steps) (hdocs : f.request.includeDocs = true)
    (hreach : f.isReachable = true) {a : Arrival} {before after : List (List Char)} {line : List Char}
    (hlines : a.lines = before ++ line :: after) (hbefore : (f.lineReader.read before).2 = none) {r : ChangeRecord}
    (hline : ChangeRecord.Carries line r d) :
    f.outcome a = f.lineReader.around before after
      ((Envelope.decode T.reader f.client.settings.classField d).map fun e => r.withDoc (some (wrap e))) := by
  rw [Feed.outcome, if_pos hreach, hlines, f.lineReader.read_around after hline.read hbefore]
  exact congrArg _ (h.change hlatest hdispatch hdocs rfl hline)

/-- **All ways of reading a document come to one outcome**, which is that of decoding it; if it cannot be decoded, that
is because what it has is no entity of the type. Splitting it puts each key with its value into one of the two parts and
not into the other, and a key that the server looks after is nothing to the entity. -/
theorem reads_alike (h : c.Finds T routes route d system) :
    c.ReadsAs T routes route d system (Envelope.decode T.reader c.settings.classField d)
    ∧ (∀ e, Envelope.decode T.reader c.settings.classField d = .error e → ∃ fault, e = .serialization fault)
    ∧ (∀ key, (Envelope.IsServers key ∧ (Envelope.split d).1.get? key = d.get? key
          ∧ (Envelope.split d).2.get? key = none)
        ∨ (¬ Envelope.IsServers key ∧ (Envelope.split d).1.get? key = none
          ∧ (Envelope.split d).2.get? key = d.get? key))
    ∧ ∀ key v, Envelope.IsServers key → Envelope.decode T.reader c.settings.classField (d.insert key v)
        = Envelope.decode T.reader c.settings.classField d := by
  refine ⟨?_, fun e he => Outcome.exists_fault_of_ofRead he, Envelope.get?_split h.sorted,
    fun key v hkey => Envelope.decode_insert T.reader hkey d v⟩
  constructor
  case get =>
    intro id options answer hbrings
    exact ⟨h.get id options hbrings, h.get_entity id options hbrings⟩
  case view =>
    intro db design name request answer raw before row after hbrings hdocs hrows hdoc
    exact result_view hbrings hdocs hrows hdoc
  case batch =>
    intro ids answer items before id after hbrings hentries
    rw [result_batch (h.takes_readBatch ids) hbrings hentries h.live, h.decode_single]
  case batchIn =>
    intro ε steps wrap hlatest db ids answer items before id after hbrings hentries
    rw [result_batch (takes_readBatchIn ..) hbrings hentries h.live, h.decode_build hlatest]
  case feed =>
    intro ε steps wrap hlatest f w a line r before after hclient hdispatch hdocs hreach hwaiting hlines hbefore hline
    subst hclient
    have houtcome := h.feed_outcome hlatest hdispatch hdocs hreach hlines hbefore hline
    obtain ⟨-, hdelivered, -, -, hfailed⟩ := f.step_waiting hwaiting a
    refine ⟨fun e he => ?_, fun fault hfault => ?_⟩
    · rw [he] at houtcome
      rw [hdelivered, houtcome]
      rfl
    · rw [hfault] at houtcome
      exact ⟨(hfailed fault).2 (by rw [houtcome]; rfl), by rw [hdelivered, houtcome]; rfl⟩

/-- A live document. -/
def sampleLive : Object := [("_id", .str "a"), ("class__", .str "Test"), ("label", .str "x")]

/-- The entity that it comes to. -/
def sampleLabelled : StockEntity := .test { id := ⟨"a"⟩, label := "x" }

/-- A reply with a text. -/
def answering (text : String) : Answer := (⟨200, text⟩ : Reply).answer

/-- A feed with documents of one type. -/
def sampleFeed : Feed StockEntity where
  client := sample
  database := ⟨"db"⟩
  request := { includeDocs := true }
  dispatch := .build [.insert ⟨⟨"Test"⟩, EntityKind.test.type, fun e => e⟩]
  settings := {}

/-- A line of that feed. -/
def sampleChange : String :=
  "\x7b\"seq\":\"1-g\",\"id\":\"a\",\"doc\":\x7b\"label\":\"x\",\"_id\":\"a\",\"class__\":\"Test\"\x7d\x7d"

/-- One document is read alone, in a view and in a feed, whatever the order of its members and of those beside it. -/
theorem reads_alike_sample :
    (sample.get EntityKind.test.type ⟨"a"⟩ {} .sample).1.result
        (answering "\x7b\"label\":\"x\",\"class__\":\"Test\",\"_id\":\"a\"\x7d") = .ok (some sampleLabelled)
    ∧ (sample.view EntityKind.test.type.reader ⟨"db"⟩ ⟨"design"⟩ "all" { includeDocs := true } .sample).1.result
        (answering ("\x7b\"total_rows\":1,\"rows\":[\x7b\"key\":null,\"doc\":"
          ++ "\x7b\"_id\":\"a\",\"label\":\"x\",\"class__\":\"Test\"\x7d\x7d]\x7d"))
      = .ok ⟨[⟨none, .null, some sampleLabelled⟩], none, some 1, none⟩
    ∧ (sampleFeed.step sampleFeed.start
          (Arrival.answered 200 [Text.encode (sampleChange ++ "\n").toList] .closed).answer).delivered
      = [⟨some ⟨"1-g"⟩, ⟨"a"⟩, [], false, some sampleLabelled⟩] := by
  have hfinds : sample.Finds EntityKind.test.type .sample ⟨⟨"db"⟩, ⟨"Test"⟩⟩ sampleLive {} :=
    ⟨⟨.sample, rfl⟩, by decide, rfl, rfl, rfl⟩
  obtain ⟨hreads, -⟩ := reads_alike hfinds
  refine ⟨?_, ?_, ?_⟩
  · exact (hreads.get ⟨"a"⟩ {} _ ⟨by decide +kernel, ⟨_, Reply.reply?_answer _, by decide +kernel⟩⟩).2
  · exact hreads.view ⟨"db"⟩ ⟨"design"⟩ "all" { includeDocs := true } _
      ⟨[⟨none, .null, .null, some sampleLive⟩], none, some 1, none⟩ [] ⟨none, .null, .null, some sampleLive⟩ []
      ⟨by decide +kernel, ⟨_, Reply.reply?_answer _, by decide +kernel⟩⟩ rfl rfl rfl
  · exact (hreads.feed [.insert ⟨⟨"Test"⟩, EntityKind.test.type, fun e => e⟩] (fun e => e) ⟨[], [], rfl, by simp⟩
      sampleFeed sampleFeed.start (.answered 200 [Text.encode (sampleChange ++ "\n").toList] .closed)
      sampleChange.toList ⟨some ⟨"1-g"⟩, ⟨"a"⟩, [], false, some sampleLive⟩ [] [] rfl rfl rfl (by decide +kernel) rfl
      (by decide +kernel) rfl ⟨by decide +kernel, rfl, rfl⟩).1 sampleLabelled rfl

end Client

end DocClient
