/-
# Lines that are no changes

A feed passes over every line that is no change, wherever it stands: with the line or without it, the worker delivers
the same changes, stands at the same cursor, sends the same requests and comes to the same end (`Feed.run_insert_line`).
Only the log tells the two apart.

There is one exception. A line that is not UTF-8 is not passed over but ends the connection, as if the connection had
broken just before it:

| the line | the connection |
| --- | --- |
| is UTF-8 and no change | goes on with the next line |
| is not UTF-8 | is given up, and what follows the line is not read |

A server that has such a line to send after the cursor sends it again on the next connection, and so the feed never
gets past it (`Feed.run_of_opensInvalid`).
-/

import DocClient.Proofs.Feed.Resume

namespace DocClient

namespace LineStream

/-- Some lines, each with its newline. -/
def terminated (lines : List (List UInt8)) : List UInt8 := lines.flatMap fun line => line ++ [newline]

@[simp] theorem terminated_nil : terminated [] = [] := rfl

@[simp] theorem terminated_cons (line : List UInt8) (rest : List (List UInt8)) :
    terminated (line :: rest) = line ++ newline :: terminated rest := by
  simp [terminated]

@[simp] theorem terminated_append (before after : List (List UInt8)) :
    terminated (before ++ after) = terminated before ++ terminated after := List.flatMap_append

/-- After a newline a line starts afresh. -/
theorem cut_concat_newline (bytes : List UInt8) : (cut (bytes ++ [newline])).2 = [] := by
  rcases line_cases bytes with h | ⟨line, rest, hline, rfl⟩
  · rw [cut_line h]
    rfl
  · rw [List.append_assoc, List.cons_append, cut_line hline]
    exact cut_concat_newline rest
termination_by bytes.length
decreasing_by simp [*]; omega

/-- Nothing is left over after some lines. -/
theorem cut_terminated (lines : List (List UInt8)) : (cut (terminated lines)).2 = [] := by
  rcases List.eq_nil_or_concat lines with rfl | ⟨before, line, rfl⟩
  · rfl
  · rw [List.concat_eq_append, terminated_append, terminated_cons, terminated_nil, ← List.append_assoc]
    exact cut_concat_newline _

/-- The lines of a body that starts with some lines are those and the lines after them. -/
theorem due_terminated_append (lines : List (List UInt8)) (body : List UInt8) (ending : Ending) :
    due (terminated lines ++ body) ending = (cut (terminated lines)).1 ++ due body ending := by
  rw [due_eq_cut, cut_append, cut_terminated, List.nil_append, due_eq_cut, List.append_assoc]

section Insertion

variable {line : List UInt8} (hline : newline ∉ line) (head tail : List (List UInt8)) (ending : Ending)

include hline in
/-- A line more stands among the lines that are due. -/
theorem due_insert : due (terminated (head ++ line :: tail)) ending
    = (cut (terminated head)).1 ++ line :: due (terminated tail) ending := by
  rw [terminated_append, due_terminated_append, terminated_cons, due_line hline]

include hline in
/-- A line that is UTF-8 is read in its place, if the reading gets there, and changes nothing else. -/
theorem ofBody_insert {cs : List Char} (htext : Text.decode? line = some cs) :
    (ofBody (terminated (head ++ line :: tail)) ending).ending = (ofBody (terminated (head ++ tail)) ending).ending
      ∧ ((ofBody (terminated (head ++ line :: tail)) ending).lines = (ofBody (terminated (head ++ tail)) ending).lines
        ∨ ∃ before after, (ofBody (terminated (head ++ tail)) ending).lines = before ++ after
          ∧ (ofBody (terminated (head ++ line :: tail)) ending).lines = before ++ cs :: after) := by
  have hwithout : due (terminated (head ++ tail)) ending
      = (cut (terminated head)).1 ++ due (terminated tail) ending := by
    rw [terminated_append, due_terminated_append]
  have hisText : isText line = true := by
    rw [isText, htext]
    rfl
  rw [ending_ofBody, ending_ofBody, lines_ofBody, lines_ofBody, due_insert hline, hwithout, readable_append,
    readable_append, readable_cons_some htext, List.all_append, List.all_append, List.all_cons, hisText, Bool.true_and]
  refine ⟨rfl, ?_⟩
  cases (cut (terminated head)).1.all isText with
  | true => exact .inr ⟨_, _, rfl, rfl⟩
  | false => exact .inl rfl

include hline in
/-- **A line that is not UTF-8 is read like a break of the connection** in its place. -/
theorem ofBody_insert_invalid (hinvalid : isText line = false) :
    ofBody (terminated (head ++ line :: tail)) ending = ofBody (terminated head) .cut := by
  have hnone : Text.decode? line = none := by
    rw [isText] at hinvalid
    exact Option.not_isSome_iff_eq_none.1 (by simp [hinvalid])
  have hhead : due (terminated head) .cut = (cut (terminated head)).1 := by
    simp [due_eq_cut]
  have hlines : (ofBody (terminated (head ++ line :: tail)) ending).lines = (ofBody (terminated head) .cut).lines := by
    rw [lines_ofBody, lines_ofBody, due_insert hline, hhead, readable_append, readable_cons_none hnone, List.append_nil,
      ite_self]
  have hending : (ofBody (terminated (head ++ line :: tail)) ending).ending
      = (ofBody (terminated head) .cut).ending := by
    rw [ending_ofBody, ending_ofBody, due_insert hline, List.all_append, List.all_cons, hinvalid, Bool.false_and,
      Bool.and_false]
    exact (ite_self _).symm
  exact congrArg₂ LineStream.mk hlines hending

end Insertion

end LineStream

variable {ε : Type}

/-- A line that is no change does not count among the changes of some lines. -/
theorem LineReader.read_insert (l : LineReader ε) (before after : List (List Char)) {line : List Char}
    (h : ChangeRecord.ofLine? line = none) : l.read (before ++ line :: after) = l.read (before ++ after) := by
  rw [read, read, List.filterMap_append, List.filterMap_append, List.filterMap_cons_none h]

/-- A connection apart from its log. -/
def Visit.unlogged (v : Visit ε) : Visit ε := { v with log := [] }

@[simp] theorem Visit.ending_unlogged (v : Visit ε) : v.unlogged.ending = v.ending := rfl

/-- A worker apart from its log. -/
def Worker.unlogged (w : Worker ε) : Worker ε := { w with log := [] }

/-- Connections that deliver the same and end alike differ in their logs at most. -/
theorem Visit.unlogged_eq {v v' : Visit ε} (hchanges : v.changes = v'.changes) (hending : v.ending = v'.ending) :
    v.unlogged = v'.unlogged := by
  rw [unlogged, unlogged, hchanges, hending]

namespace Feed

open LineStream

variable (f : Feed ε)

/-- What a worker does next does not depend on its log, nor on that of the connection. -/
theorem unlogged_step {w w' : Worker ε} (hw : w.unlogged = w'.unlogged) {a a' : Answer}
    (harrived : a.arrived = a'.arrived) (hvisit : (f.visit w.cursor a).unlogged = (f.visit w.cursor a').unlogged) :
    (f.step w a).unlogged = (f.step w' a').unlogged := by
  obtain ⟨cursor, delay, delivered, log, requests, phase⟩ := w
  obtain ⟨cursor', delay', delivered', log', requests', phase'⟩ := w'
  obtain ⟨rfl, rfl, rfl, -, rfl, rfl⟩ := Worker.mk.inj hw
  obtain ⟨hchanges, -, hending⟩ := Visit.mk.inj hvisit
  cases phase with
  | waiting =>
    simp only [step, Worker.unlogged, arrivals, harrived]
    rw [hchanges, hending]
    cases (f.visit cursor a').ending <;> rfl
  | failed e => rfl
  | stuck => rfl

/-- What a worker does later on does not depend on its log. -/
theorem unlogged_foldl_step {w w' : Worker ε} (hw : w.unlogged = w'.unlogged) (later : List Answer) :
    (later.foldl f.step w).unlogged = (later.foldl f.step w').unlogged := by
  induction later generalizing w w' with
  | nil => exact hw
  | cons a rest ih => exact ih (f.unlogged_step hw rfl rfl)

/-- With an answer in place of another the worker comes to the same, if the connections are the same at every
position. -/
theorem unlogged_run_congr (earlier later : List Answer) {a a' : Answer} (harrived : a.arrived = a'.arrived)
    (hvisit : ∀ since, (f.visit since a).unlogged = (f.visit since a').unlogged) :
    (f.run (earlier ++ a :: later)).unlogged = (f.run (earlier ++ a' :: later)).unlogged := by
  rw [run, run, List.foldl_append, List.foldl_append, List.foldl_cons, List.foldl_cons]
  exact f.unlogged_foldl_step (f.unlogged_step rfl harrived (hvisit _)) later

/-- The answer with some lines, each with its newline. -/
def sends (lines : List (List UInt8)) (ending : Ending) : Answer := .answered 200 (terminated lines) ending

theorem arrived_sends (lines : List (List UInt8)) (ending : Ending) : (sends lines ending).arrived = true := rfl

section Insertion

variable {line : List UInt8} (hline : newline ∉ line) (head tail : List (List UInt8)) (ending : Ending)

include hline in
/-- **A line that is UTF-8 and no change** changes nothing about a connection but its log. -/
theorem unlogged_visit_insert {cs : List Char} (htext : Text.decode? line = some cs)
    (hrecord : ChangeRecord.ofLine? cs = none) (since : Sequence) :
    (f.visit since (sends (head ++ line :: tail) ending)).unlogged
      = (f.visit since (sends (head ++ tail) ending)).unlogged := by
  rw [visit, visit]
  cases (f.requestAt since).isSome with
  | false => rfl
  | true =>
    obtain ⟨hending, hlines⟩ := ofBody_insert hline head tail ending htext
    have hread : f.lineReader.read (ofBody (terminated (head ++ line :: tail)) ending).lines
        = f.lineReader.read (ofBody (terminated (head ++ tail)) ending).lines := by
      rcases hlines with heq | ⟨before, after, hwithout, hwith⟩
      · rw [heq]
      · rw [hwith, hwithout, f.lineReader.read_insert before after hrecord]
    simp only [if_true, sends, Visit.ofAnswer, Visit.ofStream, hending]
    refine Visit.unlogged_eq ?_ ?_
    · rw [(f.lineReader.ofLines_eq _ _).1, (f.lineReader.ofLines_eq _ _).1, hread]
    · rw [(f.lineReader.ofLines_eq _ _).2, (f.lineReader.ofLines_eq _ _).2, hread]

include hline in
/-- A line that is not UTF-8 is a break of the connection. -/
theorem visit_insert_invalid (hinvalid : isText line = false) (since : Sequence) :
    f.visit since (sends (head ++ line :: tail) ending) = f.visit since (sends head .cut) := by
  rw [visit, visit]
  cases (f.requestAt since).isSome with
  | false => rfl
  | true =>
    simp only [if_true, sends, Visit.ofAnswer]
    rw [ofBody_insert_invalid hline head tail ending hinvalid]

end Insertion

/-- What a worker does about an answer is a matter of the connection that the answer makes. -/
theorem step_congr (w : Worker ε) {a a' : Answer} (harrived : a.arrived = a'.arrived)
    (hvisit : f.visit w.cursor a = f.visit w.cursor a') : f.step w a = f.step w a' := by
  simp only [step, arrivals, harrived, hvisit]

/-- **A line that is no change leaves no trace**, wherever it stands among the lines of an answer and whatever the
other answers are: but for its log the worker is the same with the line as without it, and the connection ends alike.
A line that is not UTF-8 is the exception: it is as if the connection had broken before it. -/
theorem run_insert_line (earlier later : List Answer) (head tail : List (List UInt8)) (ending : Ending)
    (line : List UInt8) (hline : newline ∉ line)
    (hrecord : ∀ cs, Text.decode? line = some cs → ChangeRecord.ofLine? cs = none) :
    (isText line = true →
      (f.run (earlier ++ sends (head ++ line :: tail) ending :: later)).unlogged
          = (f.run (earlier ++ sends (head ++ tail) ending :: later)).unlogged
        ∧ ∀ since, (f.visit since (sends (head ++ line :: tail) ending)).ending
          = (f.visit since (sends (head ++ tail) ending)).ending)
    ∧ (isText line = false →
      f.run (earlier ++ sends (head ++ line :: tail) ending :: later)
        = f.run (earlier ++ sends head .cut :: later)) := by
  constructor
  · intro htext
    obtain ⟨cs, hcs⟩ := Option.isSome_iff_exists.1 htext
    have harrived : (sends (head ++ line :: tail) ending).arrived = (sends (head ++ tail) ending).arrived := by
      rw [arrived_sends, arrived_sends]
    have hvisit := f.unlogged_visit_insert hline head tail ending hcs (hrecord cs hcs)
    refine ⟨f.unlogged_run_congr earlier later harrived hvisit, fun since => ?_⟩
    rw [← Visit.ending_unlogged, hvisit since, Visit.ending_unlogged]
  · intro hinvalid
    have harrived : (sends (head ++ line :: tail) ending).arrived = (sends head .cut).arrived := by
      rw [arrived_sends, arrived_sends]
    rw [run, run, List.foldl_append, List.foldl_append, List.foldl_cons, List.foldl_cons,
      f.step_congr _ harrived (f.visit_insert_invalid hline head tail ending hinvalid _)]

/-- The line of a record. -/
def sampleLine : List UInt8 := Text.encode "\x7b\"seq\":\"1-g\",\"id\":\"a\"\x7d".toList

/-- A line of no meaning before a record does not keep the record from its delivery. -/
theorem run_insert_line_sample :
    (sample.run [sends [Text.encode "no change".toList, sampleLine] .closed]).unlogged
      = (sample.run [sends [sampleLine] .closed]).unlogged :=
  ((sample.run_insert_line [] [] [] [sampleLine] .closed (Text.encode "no change".toList) (by decide +kernel)
    fun cs hcs => by
      obtain rfl : "no change".toList = cs := Option.some.inj ((Text.decode?_encode _).symm.trans hcs)
      decide +kernel).1 (by decide +kernel)).1

/-- An answer whose first line is not UTF-8. -/
def OpensInvalid (a : Answer) : Prop :=
  ∃ line tail ending, newline ∉ line ∧ isText line = false ∧ a = sends (line :: tail) ending

/-- A worker gets nothing from an answer whose first line is not UTF-8, and stays where it is. -/
theorem step_of_opensInvalid {w : Worker ε} (hw : w.phase = .waiting) {a : Answer} (ha : OpensInvalid a) :
    (f.step w a).cursor = w.cursor ∧ (f.step w a).delivered = w.delivered ∧ (f.step w a).phase = .waiting := by
  obtain ⟨line, tail, ending, hline, hinvalid, rfl⟩ := ha
  have hbreak : f.step w (sends (line :: tail) ending) = f.step w (Arrival.answered 200 [] .cut).answer :=
    f.step_congr w (arrived_sends ..) (f.visit_insert_invalid hline [] tail ending hinvalid w.cursor)
  have houtcome : f.outcome (.answered 200 [] .cut) = ([], none) := by
    rw [outcome]
    cases f.isReachable <;> rfl
  obtain ⟨hcursor, hdelivered, -, hphase, -⟩ := f.step_waiting hw (.answered 200 [] .cut)
  rw [houtcome] at hcursor hdelivered
  rw [hbreak]
  refine ⟨hcursor, by rw [hdelivered, List.append_nil], hphase.2 ?_⟩
  rw [passes, houtcome]
  rfl

/-- **A line that is not UTF-8 holds a feed up for good**: as long as the answers start with one, nothing is delivered,
and every connection starts where the first one did. -/
theorem run_of_opensInvalid (answers : List Answer) (h : ∀ a ∈ answers, OpensInvalid a) :
    (f.run answers).cursor = f.request.since ∧ (f.run answers).delivered = []
      ∧ (f.run answers).phase = .waiting := by
  induction answers using List.reverseRecOn with
  | nil => exact ⟨rfl, rfl, rfl⟩
  | append_singleton answers a ih =>
    obtain ⟨hcursor, hdelivered, hphase⟩ := ih fun a' ha' => h a' (List.mem_append_left _ ha')
    obtain ⟨hcursor', hdelivered', hphase'⟩ := f.step_of_opensInvalid hphase (h a (by simp))
    rw [f.run_concat]
    exact ⟨hcursor'.trans hcursor, hdelivered'.trans hdelivered, hphase'⟩

/-- A single byte before a record keeps it from ever being delivered, though the byte is no change. -/
theorem invalid_line_before_sampleLine :
    (∀ cs, Text.decode? [0xff] = some cs → ChangeRecord.ofLine? cs = none)
      ∧ (sample.run [sends [sampleLine] .closed]).cursor = ⟨"1-g"⟩
      ∧ ∀ n, (sample.run (List.replicate n (sends [[0xff], sampleLine] .closed))).cursor = .zero
        ∧ (sample.run (List.replicate n (sends [[0xff], sampleLine] .closed))).delivered = [] := by
  refine ⟨fun cs hcs => ?_, by decide +kernel, fun n => ?_⟩
  · have hnone : Text.decode? [0xff] = none := by decide +kernel
    rw [hnone] at hcs
    exact nomatch hcs
  · have hopens : OpensInvalid (sends [[0xff], sampleLine] .closed) :=
      ⟨[0xff], [sampleLine], .closed, by decide, by decide +kernel, rfl⟩
    obtain ⟨hcursor, hdelivered, -⟩ :=
      sample.run_of_opensInvalid (List.replicate n (sends [[0xff], sampleLine] .closed)) fun a ha =>
        List.eq_of_mem_replicate ha ▸ hopens
    exact ⟨hcursor, hdelivered⟩

end Feed
end DocClient
