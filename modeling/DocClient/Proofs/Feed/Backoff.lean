/-
# How long a worker waits

Between two connections a worker waits, the longer the more connections in a row have delivered nothing:

| the connection before | the delay |
| --- | --- |
| is the first, or delivered a change | the first delay |
| is the `j`-th in a row after that to deliver nothing | `2 ^ j` times the first delay, or the bound if that is less |

What counts is only whether a change was delivered: signs of life, lines that are passed over, failures and closed
connections are all alike nothing. The worker carries the delay along from one connection to the next; that it stands
for the number of connections in a row is the invariant (`Feed.IsPaced`), which a connection keeps (`Feed.isPaced_step`)
and from which every delay of a run is read off (`Feed.delays_of_run`). No unit of time enters into it, and no delay is
ever doubled beyond twice the bound.

The delays are those that the log announces (`Feed.delays_of_log`).
-/

import DocClient.Proofs.Feed.BadLines

namespace DocClient

variable {ε : Type}

/-- The delay that an entry of a log announces. -/
def LogEntry.delay? : LogEntry → Option Nat
  | .closedByServer delay | .interrupted delay _ => some delay
  | _ => none

/-- The delays that a log announces, in order. -/
def announced (log : List LogEntry) : List Nat := log.filterMap LogEntry.delay?

theorem announced_append (before after : List LogEntry) :
    announced (before ++ after) = announced before ++ announced after := List.filterMap_append

/-- What is logged about a line. -/
def Verdict.logged? : Verdict ε → Option LogEntry
  | .skip entry | .deliver entry _ => entry
  | .fail _ => none

/-- What is logged about a line announces no delay. -/
theorem LineReader.announced_judge (l : LineReader ε) (line : List Char) :
    announced (l.judge line).logged?.toList = [] := by
  have hrecord : ∀ r, announced (l.judgeRecord r).logged?.toList = [] := by
    intro r
    unfold judgeRecord
    repeat' split
    all_goals rfl
  have hobject : ∀ o, announced (l.judgeObject o).logged?.toList = [] := by
    intro o
    unfold judgeObject
    repeat' split
    all_goals first | rfl | exact hrecord _
  unfold judge
  dsimp only
  repeat' split
  all_goals first | rfl | exact hobject _

/-- A connection announces no delay of its own. -/
theorem Visit.announced_ofLines (l : LineReader ε) (ending : VisitEnd) (lines : List (List Char)) :
    announced (ofLines l ending lines).log = [] := by
  induction lines with
  | nil => rfl
  | cons line rest ih =>
    have hline := l.announced_judge line
    rw [ofLines]
    cases hverdict : l.judge line with
    | skip entry | deliver entry change =>
      rw [hverdict] at hline
      have hentry : announced entry.toList = [] := hline
      exact (announced_append _ _).trans (by rw [hentry, ih, List.nil_append])
    | fail e => rfl

namespace Feed

variable (f : Feed ε)

theorem announced_visit (since : Sequence) (answer : Answer) : announced (f.visit since answer).log = [] := by
  unfold visit Visit.ofAnswer
  repeat' split
  all_goals first | rfl | exact Visit.announced_ofLines ..

/-- A worker that does not wait makes no further connection, and so has no delay. -/
theorem pauses_of_ne_waiting {w : Worker ε} (hw : w.phase ≠ .waiting) (answers : List Answer) :
    f.pauses w answers = [] := by
  cases answers with
  | nil => rfl
  | cons a rest =>
    rw [pauses]
    split
    · rename_i h
      exact absurd h hw
    · rfl

/-- A connection of a worker that waits announces the delay after it, if there is one. -/
theorem announced_step {w : Worker ε} (hw : w.phase = .waiting) (answer : Answer) :
    announced (f.step w answer).log = announced w.log ++ match (f.step w answer).phase with
      | .waiting => [f.pause w (f.visit w.cursor answer).changes.length]
      | _ => [] := by
  simp only [step, hw, announced_append, f.announced_visit w.cursor answer, List.append_nil]
  cases (f.visit w.cursor answer).ending <;> simp [announced, LogEntry.delay?]

/-- **The log announces every delay**, and nothing else. -/
theorem delays_of_log (answers : List Answer) : announced (f.run answers).log = f.pauses f.start answers := by
  have hrun : ∀ w : Worker ε, announced (answers.foldl f.step w).log = announced w.log ++ f.pauses w answers := by
    induction answers with
    | nil => exact fun w => (List.append_nil _).symm
    | cons answer rest ih =>
      intro w
      rw [List.foldl_cons, ih (f.step w answer)]
      by_cases hw : w.phase = .waiting
      · rw [f.announced_step hw, List.append_assoc]
        cases hphase : (f.step w answer).phase <;> simp only [pauses, hw, hphase]
      · rw [f.step_of_ne_waiting hw, f.pauses_of_ne_waiting hw, f.pauses_of_ne_waiting hw]
  exact (hrun f.start).trans (List.nil_append _)

/-- A connection delivers a change. -/
def Delivers (a : Arrival) : Prop := (f.outcome a).1 ≠ []

instance (a : Arrival) : Decidable (f.Delivers a) := inferInstanceAs (Decidable (¬ (f.outcome a).1 = []))

/-- The delay after a connection is the first one if the connection delivered a change. -/
theorem pause_visit (w : Worker ε) (a : Arrival) :
    (f.Delivers a → f.pause w (f.visit w.cursor a.answer).changes.length = f.settings.reconnectDelay)
      ∧ (¬ f.Delivers a → f.pause w (f.visit w.cursor a.answer).changes.length = w.delay) := by
  rw [(f.visit_spec w.cursor a).1, pause]
  exact ⟨fun h => if_neg (mt List.length_eq_zero_iff.1 h), fun h => if_pos (List.length_eq_zero_iff.2 (not_not.1 h))⟩

/-- A worker that gets past a connection waits again. -/
theorem waiting_step {w : Worker ε} (hw : w.phase = .waiting) {a : Arrival} (ha : f.passes a) :
    (f.step w a.answer).phase = .waiting :=
  (f.step_waiting hw a).2.2.2.1.2 ha

/-- A worker waits after a connection that it gets past. -/
theorem pauses_cons {w : Worker ε} (hw : w.phase = .waiting) {a : Arrival} (ha : f.passes a) (rest : List Answer) :
    f.pauses w (a.answer :: rest)
      = f.pause w (f.visit w.cursor a.answer).changes.length :: f.pauses (f.step w a.answer) rest := by
  simp only [pauses, hw, f.waiting_step hw ha, List.singleton_append]

/-- A worker that does not get past a connection has no delay any more. -/
theorem pauses_of_stopped {w : Worker ε} (hw : w.phase = .waiting) {a : Arrival} (ha : ¬ f.passes a)
    (rest : List Answer) : f.pauses w (a.answer :: rest) = [] := by
  have hphase : (f.step w a.answer).phase ≠ .waiting := mt (f.step_waiting hw a).2.2.2.1.1 ha
  simp only [pauses, hw, f.pauses_of_ne_waiting hphase, List.append_nil]

/-- **A worker waits once after every connection that it gets past.** -/
theorem length_pauses {w : Worker ε} (hw : w.phase = .waiting) (replies : List Arrival) :
    (f.pauses w (replies.map Arrival.answer)).length = (replies.takeWhile f.passes).length := by
  induction replies generalizing w with
  | nil => rfl
  | cons a rest ih =>
    rw [List.map_cons]
    by_cases ha : f.passes a
    · rw [f.pauses_cons hw ha, List.length_cons, ih (f.waiting_step hw ha), List.takeWhile_cons_of_pos ha,
        List.length_cons]
    · rw [f.pauses_of_stopped hw ha, List.takeWhile_cons_of_neg ha]
      rfl

/-- The delays of a run are those of its beginning and then those of the rest. -/
theorem pauses_append {w : Worker ε} (hw : w.phase = .waiting) {before : List Arrival}
    (hbefore : ∀ a ∈ before, f.passes a) (rest : List Arrival) :
    f.pauses w ((before ++ rest).map Arrival.answer)
      = f.pauses w (before.map Arrival.answer) ++ f.pauses (f.after w before) (rest.map Arrival.answer) := by
  induction before generalizing w with
  | nil => rfl
  | cons a before ih =>
    obtain ⟨ha, hbefore⟩ := List.forall_mem_cons.1 hbefore
    rw [List.cons_append, List.map_cons, List.map_cons, f.pauses_cons hw ha, f.pauses_cons hw ha,
      ih (f.waiting_step hw ha) hbefore, List.cons_append]
    rfl

/-- The delay after `j` connections in a row that delivered nothing. -/
def delayAfter (j : Nat) : Nat := min (f.settings.reconnectDelay * 2 ^ j) f.settings.maxReconnectDelay

/-- A worker that waits and carries the delay after `j` connections in a row that deliver nothing. -/
structure IsPaced (j : Nat) (w : Worker ε) : Prop where
  waiting : w.phase = .waiting
  delay : w.delay = f.delayAfter j

theorem nextDelay_delayAfter (j : Nat) : f.nextDelay (f.delayAfter j) = f.delayAfter (j + 1) := by
  rw [nextDelay, delayAfter, delayAfter, pow_succ, ← Nat.mul_assoc]
  omega

section Bounded

variable (hle : f.settings.reconnectDelay ≤ f.settings.maxReconnectDelay)

include hle

theorem delayAfter_zero : f.delayAfter 0 = f.settings.reconnectDelay := by
  rw [delayAfter, pow_zero, Nat.mul_one, Nat.min_eq_left hle]

theorem delayAfter_bounds (j : Nat) :
    f.settings.reconnectDelay ≤ f.delayAfter j ∧ f.delayAfter j ≤ f.settings.maxReconnectDelay := by
  have hgrows : f.settings.reconnectDelay ≤ f.settings.reconnectDelay * 2 ^ j :=
    Nat.le_mul_of_pos_right _ (Nat.two_pow_pos j)
  exact ⟨le_min hgrows hle, min_le_right _ _⟩

theorem isPaced_start : f.IsPaced 0 f.start := ⟨rfl, (f.delayAfter_zero hle).symm⟩

/-- **A connection keeps the pace:** after one that delivers a change the worker waits for the first delay and starts
anew, after any other it waits for the delay that it carries and carries the next one. -/
theorem isPaced_step {w : Worker ε} {j : Nat} (hw : f.IsPaced j w) {a : Arrival} (ha : f.passes a) :
    ∃ i, (f.Delivers a → i = 0) ∧ (¬ f.Delivers a → i = j)
      ∧ f.pause w (f.visit w.cursor a.answer).changes.length = f.delayAfter i
      ∧ f.IsPaced (i + 1) (f.step w a.answer) := by
  have hpaced : ∀ {i}, f.pause w (f.visit w.cursor a.answer).changes.length = f.delayAfter i →
      f.IsPaced (i + 1) (f.step w a.answer) := by
    intro i hpause
    refine ⟨f.waiting_step hw.waiting ha, ?_⟩
    rw [← nextDelay_delayAfter, ← hpause]
    simp only [step, hw.waiting]
  by_cases hdelivers : f.Delivers a
  · have hpause := (f.pause_visit w a).1 hdelivers
    rw [← f.delayAfter_zero hle] at hpause
    exact ⟨0, fun _ => rfl, fun h => absurd hdelivers h, hpause, hpaced hpause⟩
  · have hpause := (f.pause_visit w a).2 hdelivers
    rw [hw.delay] at hpause
    exact ⟨j, fun h => absurd h hdelivers, fun _ => rfl, hpause, hpaced hpause⟩

/-- Every delay of a run is one after some connections in a row that delivered nothing. -/
theorem exists_delayAfter_of_mem_pauses {w : Worker ε} {j : Nat} (hw : f.IsPaced j w) (replies : List Arrival) :
    ∀ p ∈ f.pauses w (replies.map Arrival.answer), ∃ i, p = f.delayAfter i := by
  induction replies generalizing w j with
  | nil => exact fun _ hp => absurd hp List.not_mem_nil
  | cons a rest ih =>
    rw [List.map_cons]
    by_cases ha : f.passes a
    · obtain ⟨i, -, -, hpause, hpaced⟩ := f.isPaced_step hle hw ha
      rw [f.pauses_cons hw.waiting ha, hpause]
      exact List.forall_mem_cons.2 ⟨⟨i, rfl⟩, ih hpaced⟩
    · rw [f.pauses_of_stopped hw.waiting ha]
      exact fun _ hp => absurd hp List.not_mem_nil

/-- A worker that gets past some connections keeps the pace. -/
theorem exists_isPaced_after {w : Worker ε} {j : Nat} (hw : f.IsPaced j w) {before : List Arrival}
    (hbefore : ∀ a ∈ before, f.passes a) : ∃ i, (before = [] → i = j) ∧ f.IsPaced i (f.after w before) := by
  induction before generalizing w j with
  | nil => exact ⟨j, fun _ => rfl, hw⟩
  | cons a before ih =>
    obtain ⟨ha, hbefore⟩ := List.forall_mem_cons.1 hbefore
    obtain ⟨i, -, -, -, hpaced⟩ := f.isPaced_step hle hw ha
    obtain ⟨k, -, hk⟩ := ih hpaced hbefore
    exact ⟨k, fun h => absurd h (List.cons_ne_nil _ _), hk⟩

/-- **Of connections in a row that deliver nothing, each doubles the delay** up to the bound. -/
theorem pauses_fruitless {w : Worker ε} {j : Nat} (hw : f.IsPaced j w) {fruitless : List Arrival}
    (hpasses : ∀ a ∈ fruitless, f.passes a) (hnothing : ∀ a ∈ fruitless, ¬ f.Delivers a) (rest : List Arrival) {i : Nat}
    (hi : i < fruitless.length) :
    (f.pauses w ((fruitless ++ rest).map Arrival.answer))[i]? = some (f.delayAfter (j + i)) := by
  induction fruitless generalizing w j i with
  | nil => exact absurd hi (Nat.not_lt_zero i)
  | cons a more ih =>
    obtain ⟨ha, hpasses⟩ := List.forall_mem_cons.1 hpasses
    obtain ⟨hnone, hnothing⟩ := List.forall_mem_cons.1 hnothing
    obtain ⟨k, -, hk, hpause, hpaced⟩ := f.isPaced_step hle hw ha
    obtain rfl := hk hnone
    rw [List.cons_append, List.map_cons, f.pauses_cons hw.waiting ha, hpause]
    cases i with
    | zero => rfl
    | succ i =>
      rw [List.getElem?_cons_succ, ih hpaced hpasses hnothing (Nat.lt_of_succ_lt_succ hi), Nat.add_right_comm,
        Nat.add_assoc]

/-- **The delays of a run.** The worker waits once after every connection that it gets past, never less than the first
delay nor more than the bound, so that no delay is doubled beyond what can be told if twice the bound can. After the
first connection and after any that delivers a change it waits for the first delay, and after `j` further connections
that deliver nothing for `2 ^ j` times that, or for the bound if that is less. -/
theorem delays_of_run {limit : Nat} (hlimit : f.settings.maxReconnectDelay * 2 ≤ limit) (replies : List Arrival) :
    (f.pauses f.start (replies.map Arrival.answer)).length = (replies.takeWhile f.passes).length
    ∧ (∀ p ∈ f.pauses f.start (replies.map Arrival.answer),
        f.settings.reconnectDelay ≤ p ∧ p ≤ f.settings.maxReconnectDelay ∧ p * 2 ≤ limit)
    ∧ ∀ before a fruitless rest, replies = before ++ a :: (fruitless ++ rest) → (before = [] ∨ f.Delivers a) →
        (∀ b ∈ fruitless, ¬ f.Delivers b) → (∀ b ∈ before ++ a :: fruitless, f.passes b) →
        (f.pauses f.start (replies.map Arrival.answer))[before.length]? = some f.settings.reconnectDelay
        ∧ (f.pauses f.start (replies.map Arrival.answer))[before.length + fruitless.length]?
          = some (min (f.settings.reconnectDelay * 2 ^ fruitless.length) f.settings.maxReconnectDelay) := by
  have hstart := f.isPaced_start hle
  refine ⟨f.length_pauses rfl replies, fun p hp => ?_, ?_⟩
  · obtain ⟨i, rfl⟩ := f.exists_delayAfter_of_mem_pauses hle hstart replies p hp
    obtain ⟨hlow, hhigh⟩ := f.delayAfter_bounds hle i
    exact ⟨hlow, hhigh, by omega⟩
  · rintro before a fruitless rest rfl hfirst hnothing hpasses
    obtain ⟨hbefore, hrest⟩ := List.forall_mem_append.1 hpasses
    obtain ⟨ha, hfruitless⟩ := List.forall_mem_cons.1 hrest
    obtain ⟨i, hi, hpaced⟩ := f.exists_isPaced_after hle hstart hbefore
    obtain ⟨k, hdelivers, hnone, hpause, hnext⟩ := f.isPaced_step hle hpaced ha
    -- the count starts anew at `a`, be it the first connection or one that delivers
    have hk : k = 0 := by
      by_cases h : f.Delivers a
      · exact hdelivers h
      · exact (hnone h).trans (hi (hfirst.resolve_right h))
    obtain rfl := hk
    have hlength : (f.pauses f.start (before.map Arrival.answer)).length = before.length := by
      rw [f.length_pauses rfl, List.takeWhile_eq_self_iff.2 hbefore]
    have hat : ∀ n, (f.pauses f.start ((before ++ a :: (fruitless ++ rest)).map Arrival.answer))[before.length + n]?
        = (f.delayAfter 0
          :: f.pauses (f.step (f.after f.start before) a.answer) ((fruitless ++ rest).map Arrival.answer))[n]? := by
      intro n
      rw [f.pauses_append rfl hbefore, List.map_cons, f.pauses_cons hpaced.waiting ha, hpause,
        List.getElem?_append_right (by omega), hlength, Nat.add_sub_cancel_left]
    refine ⟨(hat 0).trans (by rw [List.getElem?_cons_zero, f.delayAfter_zero hle]), ?_⟩
    rw [hat]
    cases fruitless with
    | nil => rfl
    | cons b more =>
      rw [List.length_cons, List.getElem?_cons_succ,
        f.pauses_fruitless hle hnext hfruitless hnothing rest (Nat.lt_succ_self _), Nat.add_comm]
      rfl

end Bounded

/-- The feed of the sample, with short delays. -/
def hasty : Feed Unit := { sample with settings := { reconnectDelay := 3, maxReconnectDelay := 10 } }

/-- Connections of which only the fourth delivers a change. -/
def sampleReplies : List Arrival :=
  [.refused, .answered 200 [[0x0a]] .stalled, .answered 500 [] .closed,
    .answered 200 [sampleLine, [0x0a]] .closed, .silent]

theorem delays_of_run_hasty :
    let delays := hasty.pauses hasty.start (sampleReplies.map Arrival.answer)
    delays.length = 5 ∧ delays[0]? = some 3 ∧ delays[2]? = some 10 ∧ delays[3]? = some 3 ∧ delays[4]? = some 6 := by
  obtain ⟨hlength, -, hdelays⟩ := hasty.delays_of_run (by decide)
    (by decide : hasty.settings.maxReconnectDelay * 2 ≤ 20) sampleReplies
  have hfirst := hdelays [] .refused ((sampleReplies.drop 1).take 2) (sampleReplies.drop 3) rfl (.inl rfl)
    (by decide +kernel) (by decide +kernel)
  have hfourth := hdelays (sampleReplies.take 3) (.answered 200 [sampleLine, [0x0a]] .closed) [.silent] [] rfl
    (.inr (by decide +kernel)) (by decide +kernel) (by decide +kernel)
  exact ⟨hlength.trans (by decide +kernel), hfirst.1, hfirst.2, hfourth.1, hfourth.2⟩

end Feed
end DocClient
