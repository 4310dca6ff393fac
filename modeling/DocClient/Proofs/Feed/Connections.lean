/-
# What a feed makes of any server

A server answers each connection as it likes: with any status, with any bytes in any chunks, with any ending, or not at
all. The connections that a feed makes are its answers one after the other, each with the position it starts at
(`Feed.connections`), and everything a worker has done follows from them:

| of the worker | is |
| --- | --- |
| its requests | one for each connection that arrives, at the position of the connection |
| what it delivered | the changes of the connections, one connection after the other |
| its cursor | the position of the last change delivered that has one |
| its end | the failure of the last connection, if that failed |

A connection starts where the cursor is, so the position of the next one follows in the same way from the connections
before it.
-/

import DocClient.Proofs.Client
import DocClient.Proofs.Feed.Lines
import DocClient.Proofs.Feed.Records
import DocClient.Proofs.Http.Addresses

namespace DocClient

variable {ε : Type}

/-- The last position that some changes have. -/
def lastSeq? (changes : List (Change ε)) : Option Sequence := (changes.filterMap Change.seq).getLast?

/-- The cursor stands at the last position that was delivered. -/
theorem lastPosition_eq (start : Sequence) (changes : List (Change ε)) :
    lastPosition start changes = (lastSeq? changes).getD start := by
  induction changes using List.reverseRecOn with
  | nil => rfl
  | append_singleton changes c ih =>
    rw [lastPosition, List.foldl_append, lastSeq?, List.filterMap_append]
    cases hc : c.seq with
    | none => simpa [hc, lastPosition, lastSeq?] using ih
    | some p => simp [hc]

theorem lastPosition_append (start : Sequence) (before after : List (Change ε)) :
    lastPosition start (before ++ after) = lastPosition (lastPosition start before) after := List.foldl_append ..

/-- What becomes of a request, as it arrives: a body comes in chunks. -/
inductive Arrival where
  | refused
  | silent
  | answered (status : Nat) (chunks : List (List UInt8)) (ending : Ending)

namespace Arrival

/-- The answer that has arrived in the end. -/
def answer : Arrival → Answer
  | .refused => .refused
  | .silent => .silent
  | .answered status chunks ending => .answered status chunks.flatten ending

/-- The lines that arrive: none in an answer of another status than 200. -/
def lines : Arrival → List (List Char)
  | .answered 200 chunks ending => (LineStream.ofChunks chunks ending).lines
  | _ => []

end Arrival

namespace Feed

variable (f : Feed ε)

/-- The URL of the feed is one that a request can be made for. -/
def isReachable : Bool := (Url.parse? (f.client.locate [f.database.text, "_changes"])).isSome

theorem isSome_requestAt (since : Sequence) : (f.requestAt since).isSome = f.isReachable := by
  simp [requestAt, Client.request?, isReachable]

/-- The changes that a connection delivers, and how the feed fails in it, if it does. -/
def outcome (a : Arrival) : List (Change ε) × Option ClientError :=
  if f.isReachable then f.lineReader.read a.lines else ([], none)

/-- A connection is held up: an answer of another status than 200 stalls, and it has a body. -/
def hangs : Arrival → Bool
  | .answered status _ .stalled => f.isReachable && decide (status ≠ 200 ∧ status ∉ bodilessStatuses)
  | _ => false

/-- A connection delivers the changes among its lines and fails as they do, or ends, or is held up. -/
theorem visit_spec (since : Sequence) (a : Arrival) :
    (f.visit since a.answer).changes = (f.outcome a).1
      ∧ (∀ e, (f.visit since a.answer).ending = .failed e ↔ (f.outcome a).2 = some e)
      ∧ ((f.visit since a.answer).ending = .endless ↔ f.hangs a) := by
  rw [visit, isSome_requestAt, outcome]
  cases hreach : f.isReachable with
  | false =>
    have hhangs : f.hangs a = false := by
      unfold hangs
      split <;> simp [hreach]
    exact ⟨rfl, fun e => by simp [Visit.ofAnswer, Visit.interrupted],
      by simp [Visit.ofAnswer, Visit.interrupted, hhangs]⟩
  | true =>
    cases a with
    | refused | silent =>
      exact ⟨rfl, fun e => by simp [Arrival.answer, Visit.ofAnswer, Visit.interrupted, Arrival.lines, LineReader.read,
        Outcome.collect], by simp [Arrival.answer, Visit.ofAnswer, Visit.interrupted, hangs]⟩
    | answered status chunks ending =>
      by_cases hstatus : status = 200
      · subst hstatus
        have hhangs : f.hangs (.answered 200 chunks ending) = false := by
          cases ending <;> simp [hangs]
        simp only [if_true, Arrival.answer, Visit.ofAnswer, Visit.ofStream, ← LineStream.ofChunks_eq, Arrival.lines,
          hhangs]
        generalize LineStream.ofChunks chunks ending = s
        have hspec := fun ending => f.lineReader.ofLines_eq ending s.lines
        refine ⟨(hspec _).1, fun e => ?_, ?_⟩
        · rw [(hspec _).2]
          cases (f.lineReader.read s.lines).2 <;> cases s.ending <;> simp
        · rw [(hspec _).2]
          cases (f.lineReader.read s.lines).2 <;> cases s.ending <;> simp
      · have hlines : (Arrival.answered status chunks ending).lines = [] := by
          rw [Arrival.lines]
          intro _ _ heq
          exact absurd (Arrival.answered.inj heq).1 hstatus
        rw [hlines]
        simp only [if_true, Arrival.answer, Visit.ofAnswer, hstatus, if_false]
        by_cases hbody : status ∈ bodilessStatuses <;> cases ending <;> simp only [hbody, if_true, if_false] <;>
          exact ⟨rfl, fun e => by simp [Visit.interrupted, LineReader.read, Outcome.collect],
            by simp [Visit.interrupted, hangs, hreach, hstatus, hbody]⟩

/-- A worker gets past a connection: no change fails in it, and it is not held up. -/
def passes (a : Arrival) : Bool := (f.outcome a).2.isNone && !f.hangs a

/-- A worker that waits makes a connection: what it keeps of it. -/
theorem step_waiting {w : Worker ε} (hw : w.phase = .waiting) (a : Arrival) :
    (f.step w a.answer).cursor = lastPosition w.cursor (f.outcome a).1
      ∧ (f.step w a.answer).delivered = w.delivered ++ (f.outcome a).1
      ∧ (f.step w a.answer).requests = w.requests ++ f.arrivals w.cursor a.answer
      ∧ ((f.step w a.answer).phase = .waiting ↔ f.passes a)
      ∧ ∀ e, (f.step w a.answer).phase = .failed e ↔ (f.outcome a).2 = some e := by
  obtain ⟨hchanges, hfailed, hendless⟩ := f.visit_spec w.cursor a
  have hnone : (∀ e, (f.visit w.cursor a.answer).ending ≠ .failed e) → (f.outcome a).2 = none :=
    fun h => Option.eq_none_iff_forall_ne_some.2 fun e he => h e ((hfailed e).2 he)
  rw [step, hw]
  refine ⟨by rw [← hchanges], by rw [← hchanges], rfl, ?_, fun e => ?_⟩
  · cases hend : (f.visit w.cursor a.answer).ending with
    | closed => simpa [hend, passes, hnone] using hendless
    | interrupted reason => simpa [hend, passes, hnone] using hendless
    | failed e => simp [hend, passes, (hfailed e).1 hend]
    | endless => simp [hend, passes, hendless.1 hend]
  · rw [← hfailed]
    cases hend : (f.visit w.cursor a.answer).ending <;> simp [hend]

/-- A worker that does not wait makes no connection. -/
theorem step_of_ne_waiting {w : Worker ε} (hw : w.phase ≠ .waiting) (answer : Answer) : f.step w answer = w := by
  rw [step]
  split
  · rename_i h
    exact absurd h hw
  · rfl

/-- The connections that a worker makes, each with the position that it starts at and what arrives. -/
def connections : Worker ε → List Arrival → List (Sequence × Arrival)
  | _, [] => []
  | w, a :: rest => if w.phase = .waiting then (w.cursor, a) :: connections (f.step w a.answer) rest else []

/-- The changes of some connections, one connection after the other. -/
def changesOf (visits : List (Sequence × Arrival)) : List (Change ε) := visits.flatMap fun v => (f.outcome v.2).1

/-- The worker after some connections more. -/
def after (w : Worker ε) (arrivals : List Arrival) : Worker ε := (arrivals.map Arrival.answer).foldl f.step w

theorem connections_of_ne_waiting {w : Worker ε} (hw : w.phase ≠ .waiting) (arrivals : List Arrival) :
    f.connections w arrivals = [] := by
  cases arrivals with
  | nil => rfl
  | cons a rest => rw [connections, if_neg hw]

theorem after_of_ne_waiting {w : Worker ε} (hw : w.phase ≠ .waiting) (arrivals : List Arrival) :
    f.after w arrivals = w := by
  induction arrivals with
  | nil => rfl
  | cons a rest ih =>
    rw [after, List.map_cons, List.foldl_cons, f.step_of_ne_waiting hw]
    exact ih

/-- What a worker has done after some connections, and what it was before them. -/
structure Account (w : Worker ε) (arrivals : List Arrival) (visits : List (Sequence × Arrival)) (w' : Worker ε) :
    Prop where
  /-- A worker that waits gets one connection for each arrival, up to the first that it does not get past. -/
  made : visits.map Prod.snd
    = if w.phase = .waiting then arrivals.takeWhile f.passes ++ (arrivals.dropWhile f.passes).take 1 else []
  /-- A connection starts where the cursor is. -/
  position : ∀ k (h : k < visits.length), visits[k].1 = lastPosition w.cursor (f.changesOf (visits.take k))
  cursor : w'.cursor = lastPosition w.cursor (f.changesOf visits)
  delivered : w'.delivered = w.delivered ++ f.changesOf visits
  requests : w'.requests = w.requests ++ visits.flatMap fun v => f.arrivals v.1 v.2.answer
  failed : ∀ e, w'.phase = .failed e
    ↔ (visits = [] ∧ w.phase = .failed e) ∨ ∃ v, visits.getLast? = some v ∧ (f.outcome v.2).2 = some e

/-- A worker that makes no connection stays as it is. -/
theorem account_nil {w : Worker ε} {arrivals : List Arrival} (h : w.phase = .waiting → arrivals = []) :
    f.Account w arrivals [] w where
  made := by
    split
    · rename_i hw
      simp [h hw]
    · rfl
  position k hk := absurd hk (Nat.not_lt_zero k)
  cursor := rfl
  delivered := (List.append_nil _).symm
  requests := (List.append_nil _).symm
  failed e := by simp

/-- **One connection more, at the beginning.** -/
theorem account_cons {w w' : Worker ε} (hw : w.phase = .waiting) {a : Arrival} {rest : List Arrival}
    {visits : List (Sequence × Arrival)} (h : f.Account (f.step w a.answer) rest visits w') :
    f.Account w (a :: rest) ((w.cursor, a) :: visits) w' := by
  obtain ⟨hcursor, hdelivered, hrequests, hphase, hfailed⟩ := f.step_waiting hw a
  have hchanges : ∀ vs, f.changesOf ((w.cursor, a) :: vs) = (f.outcome a).1 ++ f.changesOf vs := fun _ => rfl
  constructor
  case made =>
    rw [List.map_cons, h.made, if_pos hw]
    by_cases hpass : f.passes a
    · simp [hphase.2 hpass, hpass]
    · simp [mt hphase.1 hpass, hpass]
  case position =>
    intro k hk
    cases k with
    | zero => rfl
    | succ k =>
      rw [List.getElem_cons_succ, h.position k (Nat.lt_of_succ_lt_succ hk), List.take_succ_cons, hchanges,
        lastPosition_append, hcursor]
  case cursor => rw [h.cursor, hchanges, lastPosition_append, hcursor]
  case delivered => rw [h.delivered, hchanges, hdelivered, List.append_assoc]
  case requests => rw [h.requests, hrequests, List.flatMap_cons, List.append_assoc]
  case failed =>
    intro e
    rw [h.failed e, hfailed e]
    cases visits with
    | nil => simp
    | cons v vs => simp

/-- **The connections that a worker makes account for what it does.** -/
theorem account_after (w : Worker ε) (arrivals : List Arrival) :
    f.Account w arrivals (f.connections w arrivals) (f.after w arrivals) := by
  induction arrivals generalizing w with
  | nil => exact f.account_nil fun _ => rfl
  | cons a rest ih =>
    by_cases hw : w.phase = .waiting
    · rw [connections, if_pos hw]
      exact f.account_cons hw (ih _)
    · rw [f.connections_of_ne_waiting hw, f.after_of_ne_waiting hw]
      exact f.account_nil fun h => absurd h hw

/-- What a request of the feed says. -/
structure Asks (since : Sequence) (r : Request) : Prop where
  method : r.method = .post
  place : r.place = f.client.place [f.database.text, "_changes"]
  /-- It is for the changes of the database exactly if a segment can be made of the name of the database. -/
  addressed : f.client.HasPlainBase →
    (r.Addresses f.client.leadingPath f.database.text "_changes" ↔ IsSegmentName f.database.text)
  based : f.client.HasPlainBase → Url.EndsPlainly f.client.settings.server.toList →
    f.client.leadingPath = f.client.basePath
  pairs : r.pairs = f.client.ownPairs [f.database.text, "_changes"] ++ f.request.query since
  body : r.body = some f.request.body

theorem asks_of_requestAt {since : Sequence} {r : Request} (h : f.requestAt since = some r) : f.Asks since r := by
  obtain ⟨hmethod, hbody, hplace, hpairs⟩ := Client.request?_eq_some h
  have hfor := Client.isFor_of_request? h
  have hname : IsSegmentName "_changes" := ⟨by decide, by decide⟩
  exact ⟨hmethod, hplace, fun hplain => (hfor.addressed hplain).trans (and_iff_left hname), hfor.based, hpairs, hbody⟩

/-- The requests of some connections: one for each that arrives. -/
theorem forall₂_asks (visits : List (Sequence × Arrival)) :
    List.Forall₂ (fun v r => f.Asks v.1 r) (visits.filter fun v => f.isReachable && v.2.answer.arrived)
      (visits.flatMap fun v => f.arrivals v.1 v.2.answer) := by
  induction visits with
  | nil => exact .nil
  | cons v rest ih =>
    have hreach := f.isSome_requestAt v.1
    rw [List.flatMap_cons, arrivals]
    cases harrived : v.2.answer.arrived with
    | false => simpa [harrived] using ih
    | true =>
      cases hr : f.requestAt v.1 with
      | none =>
        rw [hr] at hreach
        simpa [harrived, ← hreach] using ih
      | some r =>
        rw [hr] at hreach
        simpa [harrived, ← hreach] using And.intro (f.asks_of_requestAt hr) (by simpa [← hreach] using ih)

/-- **A feed against any server.** It makes one connection for each answer, up to the first that it does not get past.
A connection that reaches the server posts the query of its position, which is the last position delivered on the
connections before it; it posts it to the changes of the database, unless no segment can be made of the name of the
database. The changes are those of the connections in order; each connection delivers the records among its lines up to
the first whose document cannot be decoded, and that one ends the feed. -/
theorem run_of_arrivals (replies : List Arrival) : ∃ visits : List (Sequence × Arrival),
    visits.map Prod.snd = replies.takeWhile f.passes ++ (replies.dropWhile f.passes).take 1
    ∧ (∀ k (h : k < visits.length),
        visits[k].1 = (lastSeq? ((visits.take k).flatMap fun v => (f.outcome v.2).1)).getD f.request.since)
    ∧ List.Forall₂ (fun v r => f.Asks v.1 r) (visits.filter fun v => f.isReachable && v.2.answer.arrived)
        (f.run (replies.map Arrival.answer)).requests
    ∧ (f.run (replies.map Arrival.answer)).delivered = visits.flatMap (fun v => (f.outcome v.2).1)
    ∧ (f.run (replies.map Arrival.answer)).cursor
        = (lastSeq? (f.run (replies.map Arrival.answer)).delivered).getD f.request.since
    ∧ (∀ e, (f.run (replies.map Arrival.answer)).phase = .failed e
        ↔ ∃ v, visits.getLast? = some v ∧ (f.outcome v.2).2 = some e)
    ∧ (∀ chunks ending, (Arrival.answered 200 chunks ending).lines
        = LineStream.readable (LineStream.due chunks.flatten ending))
    ∧ (∀ line r, ChangeRecord.ofLine? line = some r
        ↔ ∃ o, Reader.ofText Reader.object (Text.trim line) = .ok o ∧ o.get? "error" = none
          ∧ o.get? "last_seq" = none ∧ ChangeRecord.Describes o r)
    ∧ ∀ r c, f.lineReader.change r = .ok c →
        c.seq = r.seq ∧ c.id = r.id ∧ c.revisions = r.revisions ∧ c.deleted = r.deleted := by
  have h := f.account_after f.start replies
  have hdelivered : (f.after f.start replies).delivered = _ := h.delivered
  refine ⟨f.connections f.start replies, h.made, ?_, ?_, hdelivered, ?_, ?_, ?_,
    fun _ _ => ChangeRecord.ofLine?_eq_some, ?_⟩
  · intro k hk
    rw [h.position k hk, lastPosition_eq]
    rfl
  · have hrequests : (f.after f.start replies).requests = _ := h.requests
    rw [after] at hrequests
    rw [run, hrequests]
    exact f.forall₂_asks _
  · have hcursor : (f.after f.start replies).cursor = _ := h.cursor
    rw [after] at hcursor hdelivered
    rw [run, hcursor, hdelivered, lastPosition_eq]
    rfl
  · intro e
    have hfailed := h.failed e
    rw [after] at hfailed
    rw [run, hfailed]
    simp [start]
  · intro chunks ending
    rw [Arrival.lines, LineStream.ofChunks_eq, LineStream.lines_ofBody]
  · intro r c hc
    exact f.lineReader.fields_of_change hc

/-- The feed of a database, asked for from now on. -/
def ofDatabase (name : String) : Feed Unit where
  client := .sample
  database := ⟨name⟩
  request := {}
  dispatch := {}
  settings := {}

/-- **The feed of a database `.` or `..` is asked for at `/_changes`**, which is that of no database. -/
theorem connection_for_dots :
    ((ofDatabase ".").run [.answered 200 [] .closed]).requests.map (fun r => (r.method, r.target))
        = [(.post, "/_changes?feed=continuous&heartbeat=60000&since=now&style=main_only")]
      ∧ ((ofDatabase "..").run [.answered 200 [] .closed]).requests.map (fun r => (r.method, r.target))
        = [(.post, "/_changes?feed=continuous&heartbeat=60000&since=now&style=main_only")] := by
  decide +kernel

end Feed
end DocClient
