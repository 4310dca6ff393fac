/-
# What a connection waits for

All that a worker does in a connection is to wait: for the status of the answer, and then for the lines of its body or,
where the status is not 200 but has a body, for the body as a whole. `Connection` is such a wait part way through. It
goes on with each thing that reaches the worker (`Connection.receive`), and when nothing has come for the idle time
(`Connection.expire`):

| the worker waits for | when nothing has come for the idle time |
| --- | --- |
| the status | the connection is given up |
| a line | the connection is given up |
| the body of an answer of another status than 200 | the worker goes on waiting |

So an answer that has come as far as it will, and one idle time more, is all that a connection takes, except for an
answer of another status than 200 whose body stalls (`Feed.waits_of_answer`). Such an answer holds the worker up for
good, and nothing else does.
-/

import DocClient.Proofs.Feed.Resume
import Mathlib.Logic.Function.Iterate

namespace DocClient

variable {ε : Type}

/-- What reaches a worker of an answer. -/
inductive Signal where
  | status (code : Nat)
  | chunk (bytes : List UInt8)
  /-- The body has ended. -/
  | finished
  /-- The connection has broken. -/
  | broken

/-- How the worker learns of the end of an answer: not at all of a stall. -/
def Ending.signals : Ending → List Signal
  | .closed => [.finished]
  | .cut => [.broken]
  | .stalled => []

/-- What reaches the worker of an answer, in order. -/
def Arrival.signals : Arrival → List Signal
  | .refused => [.broken]
  | .silent => []
  | .answered status chunks ending => .status status :: (chunks.map .chunk ++ ending.signals)

/-- A connection part way through. -/
inductive Connection (ε : Type) where
  /-- It waits for the status. -/
  | opening
  /-- It waits for a line: the changes and the log so far, and what there is of the line. -/
  | reading (changes : List (Change ε)) (log : List LogEntry) (begun : List UInt8)
  /-- It waits for the rest of the body of another status than 200. -/
  | rejecting (status : Nat) (body : List UInt8)
  | ended (v : Visit ε)

namespace Visit

/-- The connection with some changes more and their log, which come first. -/
def after (changes : List (Change ε)) (log : List LogEntry) (v : Visit ε) : Visit ε :=
  ⟨changes ++ v.changes, log ++ v.log, v.ending⟩

@[simp] theorem after_nil (v : Visit ε) : v.after [] [] = v := rfl

theorem after_skip (changes : List (Change ε)) (log : List LogEntry) (entry : Option LogEntry) (v : Visit ε) :
    (v.skip entry).after changes log = v.after changes (log ++ entry.toList) := by
  simp [after, skip]

theorem after_deliver (changes : List (Change ε)) (log : List LogEntry) (entry : Option LogEntry) (c : Change ε)
    (v : Visit ε) : (v.deliver entry c).after changes log = v.after (changes ++ [c]) (log ++ entry.toList) := by
  simp [after, deliver]

/-- A connection that reads some lines, not all of them UTF-8 perhaps, and then ends. -/
def ofRaw (l : LineReader ε) (ending : VisitEnd) (lines : List (List UInt8)) : Visit ε :=
  ofLines l (if lines.all LineStream.isText then ending else .interrupted .readFailed) (LineStream.readable lines)

end Visit

namespace Connection

variable (l : LineReader ε)

/-- The worker has stopped waiting. -/
def isEnded : Connection ε → Bool
  | .ended _ => true
  | _ => false

/-- A line comes to its end. -/
def readLine : Connection ε → List UInt8 → Connection ε
  | .reading changes log begun, line =>
    match Text.decode? line with
    | none => .ended ⟨changes, log, .interrupted .readFailed⟩
    | some cs =>
      match l.judge cs with
      | .skip entry => .reading changes (log ++ entry.toList) begun
      | .deliver entry change => .reading (changes ++ [change]) (log ++ entry.toList) begun
      | .fail e => .ended ⟨changes, log, .failed e⟩
  | c, _ => c

/-- Some lines come to their end. -/
def readLines (c : Connection ε) (lines : List (List UInt8)) : Connection ε := lines.foldl (readLine l) c

/-- There are no more lines to wait for. -/
def close (ending : VisitEnd) : Connection ε → Connection ε
  | .reading changes log _ => .ended ⟨changes, log, ending⟩
  | c => c

/-- Something reaches the worker. -/
def receive : Connection ε → Signal → Connection ε
  | .opening, .status code =>
    if code = 200 then .reading [] [] []
    else if code ∈ bodilessStatuses then .ended (.interrupted (.unexpectedStatus code ""))
    else .rejecting code []
  | .opening, .finished => .ended (.interrupted .connectFailed)
  | .opening, .broken => .ended (.interrupted .connectFailed)
  | .reading changes log begun, .chunk bytes =>
    let (lines, rest) := LineStream.cut (begun ++ bytes)
    readLines l (.reading changes log rest) lines
  | .reading changes log begun, .finished =>
    (readLines l (.reading changes log []) (if begun = [] then [] else [begun])).close .closed
  | .reading changes log _, .broken => .ended ⟨changes, log, .interrupted .readFailed⟩
  | .rejecting status body, .chunk bytes => .rejecting status (body ++ bytes)
  | .rejecting status body, .finished =>
    .ended (.interrupted (.unexpectedStatus status (String.ofList (Text.decodeReplacing body))))
  | .rejecting status _, .broken => .ended (.interrupted (.unexpectedStatus status ""))
  | c, _ => c

/-- Nothing has come for the idle time. -/
def expire (idle : Nat) : Connection ε → Connection ε
  | .opening => .ended (.interrupted (.noResponse idle))
  | .reading changes log _ => .ended ⟨changes, log, .interrupted (.noData idle)⟩
  | .rejecting status body => .rejecting status body
  | .ended v => .ended v

theorem readLines_cons (c : Connection ε) (line : List UInt8) (rest : List (List UInt8)) :
    readLines l c (line :: rest) = readLines l (readLine l c line) rest := rfl

theorem readLines_append (c : Connection ε) (before after : List (List UInt8)) :
    readLines l c (before ++ after) = readLines l (readLines l c before) after := List.foldl_append

/-- Lines are nothing to a connection that is over. -/
@[simp] theorem readLines_ended (v : Visit ε) (lines : List (List UInt8)) :
    readLines l (.ended v) lines = .ended v := by
  induction lines with
  | nil => rfl
  | cons line rest ih => exact ih

/-- **The lines of a connection, one after the other, make the visit that reads them.** -/
theorem close_readLines (ending : VisitEnd) (changes : List (Change ε)) (log : List LogEntry) (begun : List UInt8)
    (lines : List (List UInt8)) : (readLines l (.reading changes log begun) lines).close ending
      = .ended ((Visit.ofRaw l ending lines).after changes log) := by
  induction lines generalizing changes log with
  | nil => simp [readLines, close, Visit.ofRaw, Visit.ofLines, Visit.after]
  | cons line rest ih =>
    rw [readLines_cons]
    cases hline : Text.decode? line with
    | none =>
      simp [readLine, hline, close, Visit.ofRaw, LineStream.isText, LineStream.readable_cons_none hline, Visit.ofLines,
        Visit.after]
    | some cs =>
      simp only [Visit.ofRaw, LineStream.readable_cons_some hline, Visit.ofLines, List.all_cons, LineStream.isText,
        hline, Option.isSome_some, Bool.true_and, readLine]
      cases l.judge cs with
      | skip entry => rw [Visit.after_skip]; exact ih _ _
      | deliver entry change => rw [Visit.after_deliver]; exact ih _ _
      | fail e => simp [close, Visit.after]

/-- A connection goes on after a line or is over with it, whatever there is of the next line. -/
theorem readLine_cases (changes : List (Change ε)) (log : List LogEntry) (line : List UInt8) :
    (∃ changes' log', ∀ begun, readLine l (.reading changes log begun) line = .reading changes' log' begun)
      ∨ ∃ v, ∀ begun, readLine l (.reading changes log begun) line = .ended v := by
  cases hline : Text.decode? line with
  | none =>
    simp only [readLine, hline]
    exact .inr ⟨_, fun _ => rfl⟩
  | some cs =>
    cases hjudge : l.judge cs <;> simp only [readLine, hline, hjudge]
    case skip entry => exact .inl ⟨_, _, fun _ => rfl⟩
    case deliver entry change => exact .inl ⟨_, _, fun _ => rfl⟩
    case fail e => exact .inr ⟨_, fun _ => rfl⟩

/-- A connection goes on after some lines or is over with them, whatever there is of the next line. -/
theorem readLines_cases (changes : List (Change ε)) (log : List LogEntry) (lines : List (List UInt8)) :
    (∃ changes' log', ∀ begun, readLines l (.reading changes log begun) lines = .reading changes' log' begun)
      ∨ ∃ v, ∀ begun, readLines l (.reading changes log begun) lines = .ended v := by
  induction lines generalizing changes log with
  | nil => exact .inl ⟨changes, log, fun _ => rfl⟩
  | cons line rest ih =>
    simp only [readLines_cons]
    rcases readLine_cases l changes log line with ⟨changes', log', h⟩ | ⟨v, h⟩
    · simp only [h]
      exact ih changes' log'
    · exact .inr ⟨v, fun begun => by rw [h, readLines_ended]⟩

/-- The connection that has got some bytes of a body of lines. -/
def ofBytes (bytes : List UInt8) : Connection ε :=
  readLines l (.reading [] [] (LineStream.cut bytes).2) (LineStream.cut bytes).1

/-- **A chunk takes a connection on by its bytes**, wherever it begins and ends. -/
theorem receive_chunk (before bytes : List UInt8) :
    (ofBytes l before).receive l (.chunk bytes) = ofBytes l (before ++ bytes) := by
  rw [ofBytes, ofBytes, LineStream.cut_append, readLines_append]
  rcases readLines_cases l [] [] (LineStream.cut before).1 with ⟨changes, log, h⟩ | ⟨v, h⟩
  · rw [h, h]
    rfl
  · rw [h, h, readLines_ended]
    rfl

theorem foldl_receive_chunk (before : List UInt8) (chunks : List (List UInt8)) :
    (chunks.map .chunk).foldl (receive l) (ofBytes l before) = ofBytes l (before ++ chunks.flatten) := by
  induction chunks generalizing before with
  | nil => simp
  | cons c rest ih => rw [List.map_cons, List.foldl_cons, receive_chunk, ih, List.flatten_cons, List.append_assoc]

/-- How a connection ends whose body of lines ends like this. -/
def endOf (idle : Nat) : Ending → VisitEnd
  | .closed => .closed
  | .cut => .interrupted .readFailed
  | .stalled => .interrupted (.noData idle)

/-- The reading of a body is the reading of its lines. -/
theorem ofStream_ofBody (idle : Nat) (body : List UInt8) (ending : Ending) :
    Visit.ofStream l idle (LineStream.ofBody body ending)
      = Visit.ofRaw l (endOf idle ending) (LineStream.due body ending) := by
  rw [Visit.ofStream, Visit.ofRaw, LineStream.lines_ofBody, LineStream.ending_ofBody]
  cases (LineStream.due body ending).all LineStream.isText with
  | false => rfl
  | true => cases ending <;> rfl

/-- **A body of lines as far as it comes, and one idle time more,** make the visit that reads the body. -/
theorem expire_ofBytes (idle : Nat) (body : List UInt8) (ending : Ending) :
    (ending.signals.foldl (receive l) (ofBytes l body)).expire idle
      = .ended (Visit.ofStream l idle (LineStream.ofBody body ending)) := by
  have hread := close_readLines l (endOf idle ending) [] [] [] (LineStream.due body ending)
  rw [ofStream_ofBody, ← Visit.after_nil (Visit.ofRaw ..), ← hread, LineStream.due_eq_cut, readLines_append,
    ofBytes]
  rcases readLines_cases l [] [] (LineStream.cut body).1 with ⟨changes, log, h⟩ | ⟨v, h⟩
  · rw [h, h]
    cases ending with
    | closed =>
      simp only [Ending.signals, List.foldl_cons, List.foldl_nil, receive, true_and, ne_eq, ite_not, endOf]
      rw [close_readLines]
      rfl
    | cut => rfl
    | stalled => rfl
  · rw [h, h, readLines_ended]
    cases ending <;> rfl

/-- A chunk of a body that is waited for as a whole goes to the rest of it. -/
theorem foldl_receive_rejecting (status : Nat) (before : List UInt8) (chunks : List (List UInt8)) :
    (chunks.map .chunk).foldl (receive l) (.rejecting status before)
      = .rejecting status (before ++ chunks.flatten) := by
  induction chunks generalizing before with
  | nil => simp
  | cons c rest ih =>
    rw [List.map_cons, List.foldl_cons, List.flatten_cons, ← List.append_assoc, ← ih]
    rfl

/-- Nothing reaches a connection that is over. -/
theorem foldl_receive_ended (v : Visit ε) (signals : List Signal) :
    signals.foldl (receive l) (.ended v) = .ended v := by
  induction signals with
  | nil => rfl
  | cons s rest ih => cases s <;> exact ih

/-- An answer of this status has a body, and it is waited for as a whole. -/
def Rejected (status : Nat) : Prop := status ≠ 200 ∧ status ∉ bodilessStatuses

/-- No other body is waited for as a whole. -/
def Sound (c : Connection ε) : Prop := ∀ status body, c = .rejecting status body → Rejected status

theorem sound_opening : (opening : Connection ε).Sound := nofun

theorem sound_ended (v : Visit ε) : (ended v).Sound := nofun

theorem sound_reading (changes : List (Change ε)) (log : List LogEntry) (begun : List UInt8) :
    (reading changes log begun).Sound := nofun

theorem sound_readLines (changes : List (Change ε)) (log : List LogEntry) (begun : List UInt8)
    (lines : List (List UInt8)) : (readLines l (.reading changes log begun) lines).Sound := by
  rcases readLines_cases l changes log lines with ⟨_, _, h⟩ | ⟨v, h⟩
  · rw [h]
    exact sound_reading _ _ _
  · rw [h]
    exact sound_ended v

theorem sound_receive {c : Connection ε} (hc : c.Sound) (s : Signal) : (c.receive l s).Sound := by
  cases c with
  | opening =>
    cases s with
    | status code =>
      rw [receive]
      split_ifs with hcode hbody
      · exact sound_reading _ _ _
      · exact sound_ended _
      · rintro _ _ ⟨⟩
        exact ⟨hcode, hbody⟩
    | finished | broken => exact sound_ended _
    | chunk bytes => exact hc
  | reading changes log begun =>
    cases s with
    | chunk bytes => exact sound_readLines l _ _ _ _
    | finished =>
      rw [receive, close_readLines]
      exact sound_ended _
    | broken => exact sound_ended _
    | status code => exact hc
  | rejecting status body =>
    have hstatus : Rejected status := hc status body rfl
    cases s with
    | finished | broken => exact sound_ended _
    | status code | chunk bytes => rintro _ _ ⟨⟩; exact hstatus
  | ended v => cases s <;> exact sound_ended v

theorem sound_foldl_receive {c : Connection ε} (hc : c.Sound) (signals : List Signal) :
    (signals.foldl (receive l) c).Sound := by
  induction signals generalizing c with
  | nil => exact hc
  | cons s rest ih => exact ih (sound_receive l hc s)

/-- **Every wait but one is bounded**: one idle time ends it, unless a body is waited for as a whole. -/
theorem isEnded_expire_or {c : Connection ε} (hc : c.Sound) (idle : Nat) :
    (c.expire idle).isEnded = true ∨ ∃ status body, Rejected status ∧ c = .rejecting status body := by
  cases c with
  | opening | reading | ended => exact .inl rfl
  | rejecting status body => exact .inr ⟨status, body, hc status body rfl, rfl⟩

theorem iterate_expire_rejecting (idle n status : Nat) (body : List UInt8) :
    (expire idle)^[n] (.rejecting status body : Connection ε) = .rejecting status body :=
  Function.iterate_fixed rfl n

end Connection

namespace Feed

open Connection

variable (f : Feed ε)

/-- A connection of a feed that this much has reached. -/
def attend (signals : List Signal) : Connection ε :=
  if f.isReachable then signals.foldl (receive f.lineReader) .opening else .ended (.interrupted .connectFailed)

theorem sound_attend (signals : List Signal) : (f.attend signals).Sound := by
  rw [attend]
  cases f.isReachable with
  | false => exact sound_ended _
  | true => exact sound_foldl_receive f.lineReader sound_opening signals

/-- **An answer as far as it comes, and one idle time more,** make the connection, unless the answer holds it up. -/
theorem expire_attend {a : Arrival} (h : f.hangs a = false) (since : Sequence) :
    (f.attend a.signals).expire f.idleTime = .ended (f.visit since a.answer) := by
  rw [attend, visit, isSome_requestAt]
  cases hreach : f.isReachable with
  | false => rfl
  | true =>
    cases a with
    | refused | silent => rfl
    | answered status chunks ending =>
      simp only [Arrival.signals, List.foldl_cons, List.foldl_append, receive, Arrival.answer, Visit.ofAnswer, if_true]
      by_cases hstatus : status = 200
      · simp only [hstatus, if_true]
        have hbody := foldl_receive_chunk f.lineReader [] chunks
        rw [List.nil_append] at hbody
        rw [← expire_ofBytes, ← hbody]
        rfl
      · simp only [hstatus, if_false]
        by_cases hbody : status ∈ bodilessStatuses
        · simp only [hbody, if_true, foldl_receive_ended]
          rfl
        · simp only [hbody, if_false, foldl_receive_rejecting, List.nil_append]
          cases ending with
          | closed | cut => rfl
          | stalled => simp [hangs, hreach, hstatus, hbody] at h

/-- An answer that holds a connection up leaves it waiting for a body as a whole. -/
theorem attend_of_hangs {a : Arrival} (h : f.hangs a = true) :
    ∃ status body, f.attend a.signals = .rejecting status body := by
  cases a with
  | refused | silent => exact nomatch h
  | answered status chunks ending =>
    cases ending with
    | closed | cut => exact nomatch h
    | stalled =>
      obtain ⟨hreach, hstatus, hbody⟩ : f.isReachable = true ∧ Rejected status := by
        simpa [hangs, Rejected] using h
      refine ⟨status, chunks.flatten, ?_⟩
      simp [attend, hreach, Arrival.signals, Ending.signals, receive, hstatus, hbody, foldl_receive_rejecting]

/-- A worker stands still after a connection that is held up, and after no other. -/
theorem step_stuck {w : Worker ε} (hw : w.phase = .waiting) (a : Arrival) :
    (f.step w a.answer).phase = .stuck ↔ f.hangs a = true := by
  rw [← (f.visit_spec w.cursor a).2.2, step, hw]
  cases hend : (f.visit w.cursor a.answer).ending <;> simp [hend]

/-- A worker stands still for good if the first answer that it does not get past holds it up. -/
theorem after_stuck (w : Worker ε) (replies : List Arrival) : (f.after w replies).phase = .stuck
    ↔ w.phase = .stuck
      ∨ w.phase = .waiting ∧ ∃ a, replies.find? (fun a => !f.passes a) = some a ∧ f.hangs a = true := by
  by_cases hw : w.phase = .waiting
  · induction replies generalizing w with
    | nil => simp [after, hw]
    | cons a rest ih =>
      have hnext : f.after w (a :: rest) = f.after (f.step w a.answer) rest := rfl
      rw [hnext, List.find?_cons]
      by_cases hpass : f.passes a = true
      · have hwaits : (f.step w a.answer).phase = .waiting := (f.step_waiting hw a).2.2.2.1.2 hpass
        simp [ih _ hwaits, hwaits, hw, hpass]
      · have hstays : (f.step w a.answer).phase ≠ .waiting := mt (f.step_waiting hw a).2.2.2.1.1 hpass
        rw [f.after_of_ne_waiting hstays, f.step_stuck hw]
        simp [hw, hpass]
  · rw [f.after_of_ne_waiting hw]
    simp [hw]

/-- A worker that is held up makes no connection more. -/
theorem after_of_hangs {w : Worker ε} (hw : w.phase = .waiting) {a : Arrival} (h : f.hangs a = true)
    (later : List Arrival) : f.after w (a :: later) = f.step w a.answer := by
  have hstuck : (f.step w a.answer).phase = .stuck := (f.step_stuck hw a).2 h
  exact f.after_of_ne_waiting (by simp [hstuck]) later

/-- **No answer but one holds a feed up.** An answer as far as it comes and at most one idle time more are the whole
of a connection, unless the answer has another status than 200, and a body that stalls: no idle time ends that. At any
other moment, whatever has come, one idle time ends the connection. So the worker stands still for good exactly if the
first answer that it does not get past is of that kind. -/
theorem waits_of_answer (since : Sequence) (a : Arrival) :
    (f.hangs a = false → (f.attend a.signals).expire f.idleTime = .ended (f.visit since a.answer))
    ∧ (f.hangs a = true → ∀ n, ((expire f.idleTime)^[n] (f.attend a.signals)).isEnded = false)
    ∧ (∀ signals, ((f.attend signals).expire f.idleTime).isEnded = true
      ∨ ∃ status body, Rejected status ∧ f.attend signals = .rejecting status body)
    ∧ ∀ replies : List Arrival, (f.run (replies.map Arrival.answer)).phase = .stuck
      ↔ ∃ a, replies.find? (fun a => !f.passes a) = some a ∧ f.hangs a = true := by
  refine ⟨fun h => f.expire_attend h since, fun h n => ?_, fun signals => ?_, fun replies => ?_⟩
  · obtain ⟨status, body, heq⟩ := f.attend_of_hangs h
    rw [heq, iterate_expire_rejecting]
    rfl
  · exact isEnded_expire_or (f.sound_attend signals) f.idleTime
  · have hrun := f.after_stuck f.start replies
    rw [after] at hrun
    rw [run, hrun]
    simp [start]

/-- A failure of the server whose text does not come to its end. -/
def stalledFailure : Arrival := .answered 500 [[0x78]] .stalled

/-- A failure of the server whose text does not come to its end is waited for whatever time goes by, and whatever the
server would have answered later the worker does not ask for. -/
theorem sample_stalledFailure :
    (∀ n, ((expire sample.idleTime)^[n] (sample.attend stalledFailure.signals)).isEnded = false)
      ∧ ∀ later : List Arrival, sample.run ((stalledFailure :: later).map Arrival.answer)
          = sample.step sample.start stalledFailure.answer
        ∧ (sample.run ((stalledFailure :: later).map Arrival.answer)).phase = .stuck := by
  have hhangs : sample.hangs stalledFailure = true := by decide +kernel
  have hrun (later : List Arrival) : sample.run ((stalledFailure :: later).map Arrival.answer)
      = sample.step sample.start stalledFailure.answer := sample.after_of_hangs rfl hhangs later
  refine ⟨fun n => ?_, fun later => ⟨hrun later, ?_⟩⟩
  · obtain ⟨status, body, heq⟩ := sample.attend_of_hangs hhangs
    rw [heq, iterate_expire_rejecting]
    rfl
  · rw [hrun]
    exact (sample.step_stuck rfl stalledFailure).2 hhangs

end Feed
end DocClient
