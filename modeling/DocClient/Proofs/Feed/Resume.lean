/-
# Resuming a feed

A server keeps a log of changes. Asked for what comes after a position it streams the lines of the records after that
position, with blank lines anywhere between them as signs of life; but any connection may fail, and any stream may be
cut off, at any byte and in any way. Nothing of the log is lost or repeated for all that: what the feed has delivered is
always a beginning of the log, and its cursor is the position of the last record of it (`Feed.resume`).

| the stream is cut off | the record there |
| --- | --- |
| before the end of its text | is no change, and comes again on the next connection |
| after its text, before its newline | is delivered if the body ends by itself, and else comes again |
| after its newline | is delivered |

That the first row is right rests on `Reader.ofText_object_prefix`: no record that is cut off reads as another one.
-/

import DocClient.Proofs.Client
import DocClient.Proofs.Feed.Connections
import DocClient.Proofs.Json.Truncation
import Mathlib.Data.List.TakeWhile

namespace DocClient

namespace Text

/-- A line of white space. -/
def isBlankLine (line : List Char) : Bool := line.all isBlankChar

theorem trim_of_isBlankLine {line : List Char} (h : isBlankLine line) : trim line = [] := by
  have hdrop : line.dropWhile isBlankChar = [] := List.dropWhile_eq_nil_iff.2 (List.all_eq_true.1 h)
  rw [trim, hdrop]
  rfl

/-- Of a line that starts with a brace only the end is trimmed. -/
theorem trim_prefix {line : List Char} (h : ∀ c, line.head? = some c → c = '\x7b') : trim line <+: line := by
  have hdrop : line.dropWhile isBlankChar = line := by
    cases line with
    | nil => rfl
    | cons c rest =>
      obtain rfl := h c rfl
      rfl
  rw [trim, hdrop]
  exact List.reverse_suffix.1 (by simpa using List.dropWhile_suffix isBlankChar)

/-- Nothing is trimmed between braces. -/
theorem trim_eq_self {line : List Char} (hopen : line.head? = some '\x7b') (hclose : line.getLast? = some '\x7d') :
    trim line = line := by
  have hdrop : line.dropWhile isBlankChar = line := by
    cases line with
    | nil => rfl
    | cons c rest =>
      obtain rfl := Option.some.inj hopen
      rfl
  have hback : line.reverse.dropWhile isBlankChar = line.reverse := by
    cases hr : line.reverse with
    | nil => rfl
    | cons c rest =>
      rw [← List.head?_reverse, hr] at hclose
      obtain rfl := Option.some.inj hclose
      rfl
  rw [trim, hdrop, hback, List.reverse_reverse]

/-- A newline comes from no other character. -/
theorem newline_not_mem_encode {cs : List Char} (h : '\n' ∉ cs) : LineStream.newline ∉ encode cs := by
  intro hmem
  obtain ⟨c, hc, hb⟩ := List.mem_flatMap.1 hmem
  have heq : c.toNat = '\n'.toNat := (ascii_of_mem_encodeChar hb (by decide)).symm
  exact h (Char.toNat_inj.1 heq ▸ hc)

end Text

namespace ChangeRecord

theorem ofLine?_of_isBlankLine {line : List Char} (h : Text.isBlankLine line) : ofLine? line = none := by
  rw [ofLine?, Text.trim_of_isBlankLine h]
  rfl

/-- **A change that is cut off is no change.** -/
theorem ofLine?_prefix {text cut : List Char} {r : ChangeRecord} (h : ofLine? text = some r)
    (hopen : text.head? = some '\x7b') (hclose : text.getLast? = some '\x7d') (hcut : cut <+: text) (hne : cut ≠ text) :
    ofLine? cut = none := by
  obtain ⟨o, ho, -⟩ := ofLine?_eq_some.1 h
  rw [Text.trim_eq_self hopen hclose] at ho
  have hhead : ∀ c, cut.head? = some c → c = '\x7b' := by
    intro c hc
    obtain ⟨rest, rfl⟩ := hcut
    rw [List.head?_append, hc] at hopen
    exact Option.some.inj hopen
  have htrim : Text.trim cut <+: cut := Text.trim_prefix hhead
  have htrimne : Text.trim cut ≠ text := by
    intro heq
    exact hne (hcut.eq_of_length_le (heq ▸ htrim.length_le))
  refine Option.eq_none_iff_forall_ne_some.2 fun r' h' => ?_
  obtain ⟨o', ho', -⟩ := ofLine?_eq_some.1 h'
  exact Reader.ofText_object_prefix ho hclose (htrim.trans hcut) htrimne o' ho'

end ChangeRecord

namespace FeedRequest

/-- A connection that starts at a position asks for what comes after it. -/
theorem lookup_since (r : FeedRequest) (since : Sequence) :
    (r.query since).reverse.lookup "since" = some since.text := by
  have hlast : ∀ rest : List (String × String), (∀ p ∈ rest, p.1 ≠ "since") →
      ([("feed", "continuous"), ("heartbeat", toString r.heartbeat), ("since", since.text), ("style", r.style.text)]
        ++ rest).reverse.lookup "since" = some since.text := by
    intro rest h
    have hnone : rest.reverse.lookup "since" = none :=
      List.lookup_eq_none_iff.2 fun p hp => by simpa using Ne.symm (h p (List.mem_reverse.1 hp))
    rw [List.reverse_append, List.lookup_append, hnone]
    simp [List.lookup_cons]
  have hswitches : ∀ s ∈ r.switches, s.1 ≠ "since" := by
    simp [switches]
  have hnumbers : ∀ n ∈ r.numbers, n.1 ≠ "since" := by
    simp [numbers]
  simp only [query, List.append_assoc]
  refine hlast _ fun p hp => ?_
  simp only [List.mem_append, Option.mem_toList, Option.map_eq_some_iff] at hp
  rcases hp with hp | ⟨filter, -, rfl⟩ | ⟨id, -, rfl⟩ | hp | ⟨view, -, rfl⟩
  · obtain ⟨s, hs, rfl⟩ := List.mem_map.1 hp
    exact hswitches s (List.mem_of_mem_filter hs)
  · simp
  · simp
  · obtain ⟨n, hn, hp⟩ := List.mem_filterMap.1 hp
    obtain ⟨value, -, rfl⟩ := Option.map_eq_some_iff.1 hp
    exact hnumbers n hn
  · simp

end FeedRequest

theorem Sequence.text_inj {p q : Sequence} : p.text = q.text ↔ p = q := by
  cases p
  cases q
  simp

variable {ε : Type}

/-- A change as a server keeps it: the text of its line, from brace to brace, and what the line says to a reader. -/
structure LogRecord (l : LineReader ε) where
  text : List Char
  opens : text.head? = some '\x7b'
  closes : text.getLast? = some '\x7d'
  oneLine : '\n' ∉ text
  record : ChangeRecord
  isRecord : ChangeRecord.ofLine? text = some record
  position : Sequence
  hasPosition : record.seq = some position
  change : Change ε
  isChange : l.change record = .ok change

namespace LogRecord

variable {l : LineReader ε}

/-- Some lines are those of some records, with blank lines anywhere between them. -/
structure Spells (due : List (LogRecord l)) (lines : List (List Char)) : Prop where
  records : lines.filter (fun line => !Text.isBlankLine line) = due.map text
  blanks : ∀ line ∈ lines, Text.isBlankLine line → '\n' ∉ line

/-- The bytes of some lines, each with its newline. -/
def bytes (lines : List (List Char)) : List UInt8 := Text.encode (lines.flatMap fun line => line ++ ['\n'])

theorem bytes_cons (line : List Char) (rest : List (List Char)) :
    bytes (line :: rest) = Text.encode line ++ LineStream.newline :: bytes rest := by
  rw [bytes, List.flatMap_cons, Text.encode_append, Text.encode_append, List.append_assoc]
  rfl

theorem seq_change (x : LogRecord l) : x.change.seq = some x.position := by
  rw [(l.fields_of_change x.isChange).1, x.hasPosition]

/-- No line goes over its end. -/
theorem Spells.newline_not_mem {due : List (LogRecord l)} {lines : List (List Char)} (h : Spells due lines) :
    ∀ line ∈ lines, '\n' ∉ line := by
  intro line hl
  by_cases hblank : Text.isBlankLine line
  · exact h.blanks line hl hblank
  · have hrecord : line ∈ due.map text := by
      rw [← h.records]
      exact List.mem_filter.2 ⟨hl, by simpa using hblank⟩
    obtain ⟨x, -, rfl⟩ := List.mem_map.1 hrecord
    exact x.oneLine

/-- The first line is blank, or it is the first record. -/
theorem Spells.cons_cases {due : List (LogRecord l)} {line : List Char} {rest : List (List Char)}
    (h : Spells due (line :: rest)) :
    (Text.isBlankLine line ∧ Spells due rest) ∨ ∃ x more, due = x :: more ∧ line = x.text ∧ Spells more rest := by
  have hblanks : ∀ line ∈ rest, Text.isBlankLine line → '\n' ∉ line :=
    fun line hl => h.blanks line (List.mem_cons_of_mem _ hl)
  have hrecords := h.records
  rw [List.filter_cons] at hrecords
  cases hblank : Text.isBlankLine line with
  | true =>
    rw [hblank] at hrecords
    exact .inl ⟨rfl, hrecords, hblanks⟩
  | false =>
    rw [hblank] at hrecords
    cases due with
    | nil => cases hrecords
    | cons x more =>
      obtain ⟨hline, hrecords⟩ := List.cons_eq_cons.1 hrecords
      exact .inr ⟨x, more, rfl, hline, hrecords, hblanks⟩

/-- A record on a line of its own is delivered. -/
theorem read_cons (x : LogRecord l) (lines : List (List Char)) :
    l.read (x.text :: lines) = (x.change :: (l.read lines).1, (l.read lines).2) := by
  rw [LineReader.read, List.filterMap_cons_some x.isRecord, List.map_cons, x.isChange]
  rfl

/-- A line that is no change is passed over. -/
theorem read_cons_none {line : List Char} (h : ChangeRecord.ofLine? line = none) (lines : List (List Char)) :
    l.read (line :: lines) = l.read lines := by
  rw [LineReader.read, List.filterMap_cons_none h]
  rfl

/-- What is cut off before the first newline is the first record, or nothing. -/
theorem read_begun {due : List (LogRecord l)} {line : List Char} {rest : List (List Char)}
    (h : Spells due (line :: rest)) {body : List UInt8} (hbody : body <+: Text.encode line) (ending : Ending) :
    ∃ m ≤ due.length, l.read (LineStream.ofBody body ending).lines = ((due.take m).map change, none) := by
  have hnewline : LineStream.newline ∉ body :=
    fun hmem => Text.newline_not_mem_encode (h.newline_not_mem line (List.mem_cons_self ..)) (hbody.subset hmem)
  rw [LineStream.lines_ofBody, LineStream.due_of_not_mem hnewline]
  split
  · cases hd : Text.decode? body with
    | none => exact ⟨0, Nat.zero_le _, by rw [LineStream.readable_cons_none hd]; rfl⟩
    | some cs =>
      have hcs : cs <+: line := Text.prefix_of_decode? hbody hd
      rw [LineStream.readable_cons_some hd, LineStream.readable_nil]
      rcases h.cons_cases with ⟨hblank, -⟩ | ⟨x, more, rfl, rfl, -⟩
      · have hcsblank : Text.isBlankLine cs :=
          List.all_eq_true.2 fun c hc => List.all_eq_true.1 hblank c (hcs.subset hc)
        exact ⟨0, Nat.zero_le _, read_cons_none (ChangeRecord.ofLine?_of_isBlankLine hcsblank) []⟩
      · by_cases hwhole : cs = x.text
        · exact ⟨1, Nat.le_add_left .., by rw [hwhole, read_cons]; rfl⟩
        · have hnone := ChangeRecord.ofLine?_prefix x.isRecord x.opens x.closes hcs hwhole
          exact ⟨0, Nat.zero_le _, read_cons_none hnone []⟩
  · exact ⟨0, Nat.zero_le _, rfl⟩

/-- **A connection delivers a beginning of what it is to deliver**, all of it if it is not cut off. -/
theorem read_bytes {lines : List (List Char)} : ∀ {due : List (LogRecord l)}, Spells due lines →
    ∀ {body : List UInt8}, body <+: bytes lines → ∀ ending : Ending,
      ∃ m ≤ due.length, l.read (LineStream.ofBody body ending).lines = ((due.take m).map change, none)
        ∧ (body = bytes lines → m = due.length) := by
  induction lines with
  | nil =>
    intro due h body hbody ending
    obtain rfl := List.prefix_nil.1 hbody
    have hdue : due = [] := by simpa using h.records
    subst hdue
    refine ⟨0, Nat.le_refl _, ?_, fun _ => rfl⟩
    rw [LineStream.lines_ofBody, LineStream.due_of_not_mem List.not_mem_nil]
    simp [LineReader.read, Outcome.collect]
  | cons line rest ih =>
    intro due h body hbody ending
    have hline : LineStream.newline ∉ Text.encode line :=
      Text.newline_not_mem_encode (h.newline_not_mem line (List.mem_cons_self ..))
    rw [bytes_cons] at hbody ⊢
    by_cases hcut : body <+: Text.encode line
    · obtain ⟨m, hm, hread⟩ := read_begun h hcut ending
      refine ⟨m, hm, hread, fun heq => absurd (hcut.subset (heq ▸ ?_)) hline⟩
      simp
    · have hwhole := (List.prefix_or_prefix_of_prefix hbody (List.prefix_append (Text.encode line) _)).resolve_left hcut
      obtain ⟨after, rfl⟩ := hwhole
      cases after with
      | nil => exact absurd (by simp) hcut
      | cons b after =>
        obtain ⟨rfl, hafter⟩ := List.cons_prefix_cons.1 ((List.prefix_append_right_inj _).1 hbody)
        have hlines : (LineStream.ofBody (Text.encode line ++ LineStream.newline :: after) ending).lines
            = line :: (LineStream.ofBody after ending).lines := by
          rw [LineStream.lines_ofBody, LineStream.lines_ofBody, LineStream.due_line hline,
            LineStream.readable_cons_some (Text.decode?_encode line)]
        have hinj : Text.encode line ++ LineStream.newline :: after
            = Text.encode line ++ LineStream.newline :: bytes rest → after = bytes rest := by
          intro heq
          exact (List.cons_eq_cons.1 (List.append_cancel_left heq)).2
        rw [hlines]
        rcases h.cons_cases with ⟨hblank, hrest⟩ | ⟨x, more, rfl, rfl, hrest⟩
        · obtain ⟨m, hm, hread, hfull⟩ := ih hrest hafter ending
          rw [read_cons_none (ChangeRecord.ofLine?_of_isBlankLine hblank), hread]
          exact ⟨m, hm, rfl, fun heq => hfull (hinj heq)⟩
        · obtain ⟨m, hm, hread, hfull⟩ := ih hrest hafter ending
          rw [read_cons, hread]
          exact ⟨m + 1, Nat.succ_le_succ hm, rfl, fun heq => congrArg (· + 1) (hfull (hinj heq))⟩

/-- What comes after a position in a log; the whole log after the position that the feed starts at. -/
def dueAfter (log : List (LogRecord l)) (initial : Sequence) (since : String) : List (LogRecord l) :=
  if since = initial.text then log else (log.dropWhile fun x => x.position.text != since).drop 1

/-- A server that keeps a log answers a request: it fails, or it streams what comes after the position asked for, cut
off somewhere and ended somehow. -/
inductive Resumes (log : List (LogRecord l)) (initial : Sequence) (r : Request) : Answer → Prop
  | refused : Resumes log initial r .refused
  | silent : Resumes log initial r .silent
  | other {status : Nat} {body : List UInt8} {ending : Ending} (h : status ≠ 200) :
    Resumes log initial r (.answered status body ending)
  | stream {since : String} {lines : List (List Char)} {body : List UInt8} {ending : Ending}
    (asked : r.option? "since" = some since) (spells : Spells (dueAfter log initial since) lines)
    (cut : body <+: bytes lines) : Resumes log initial r (.answered 200 body ending)

/-- The cursor after some records is the position of the last of them. -/
theorem lastPosition_map (initial : Sequence) (done : List (LogRecord l)) :
    lastPosition initial (done.map change) = (done.getLast?.map position).getD initial := by
  have hseq : (done.map change).filterMap Change.seq = done.map position := by
    rw [List.filterMap_map, ← List.filterMap_eq_map]
    exact List.filterMap_congr fun x _ => x.seq_change
  rw [lastPosition_eq, lastSeq?, hseq, List.getLast?_map]

/-- **After the position of the last record that was delivered comes the rest of the log.** -/
theorem dueAfter_lastPosition {initial : Sequence} {done rest : List (LogRecord l)}
    (hdistinct : ((done ++ rest).map position).Nodup) (hinitial : initial ∉ (done ++ rest).map position) :
    dueAfter (done ++ rest) initial (lastPosition initial (done.map change)).text = rest := by
  rw [lastPosition_map]
  rcases List.eq_nil_or_concat done with rfl | ⟨before, x, rfl⟩
  · simp [dueAfter]
  · rw [List.concat_eq_append] at *
    have hne : x.position.text ≠ initial.text :=
      fun heq => hinitial (by simp [← Sequence.text_inj.1 heq])
    have hbefore : ∀ y ∈ before, (y.position.text != x.position.text) = true := by
      intro y hy
      rw [bne_iff_ne]
      intro heq
      rw [List.append_assoc, List.map_append, List.nodup_append] at hdistinct
      exact hdistinct.2.2 _ (List.mem_map_of_mem hy) _ (by simp) (Sequence.text_inj.1 heq)
    have hlast : ((before ++ [x]).getLast?.map position).getD initial = x.position := by
      simp
    rw [hlast, dueAfter, if_neg hne, List.append_assoc, List.dropWhile_append_of_pos hbefore]
    simp

end LogRecord

namespace Arrival

/-- An answer as if it came in one chunk. -/
def whole : Answer → Arrival
  | .refused => .refused
  | .silent => .silent
  | .answered status body ending => .answered status [body] ending

theorem answer_whole (a : Answer) : (whole a).answer = a := by
  cases a <;> simp [whole, answer]

theorem lines_whole (body : List UInt8) (ending : Ending) :
    (whole (.answered 200 body ending)).lines = (LineStream.ofBody body ending).lines := by
  rw [whole, lines, LineStream.ofChunks_eq, List.flatten_singleton]

end Arrival

namespace Feed

open LogRecord

variable (f : Feed ε)

/-- A run goes as if every body came in one chunk. -/
theorem after_whole (answers : List Answer) : f.after f.start (answers.map Arrival.whole) = f.run answers := by
  rw [after, List.map_map, run]
  congr 1
  exact List.map_id'' Arrival.answer_whole answers

/-- The cursor stands at the last position that was delivered. -/
theorem cursor_run (answers : List Answer) :
    (f.run answers).cursor = lastPosition f.request.since (f.run answers).delivered := by
  have h := f.account_after f.start (answers.map Arrival.whole)
  have hdelivered := h.delivered
  rw [← f.after_whole, hdelivered]
  exact h.cursor

/-- What a connection delivers of what it is to deliver. -/
theorem outcome_of_resumes {log : List (LogRecord f.lineReader)} {initial : Sequence} {r : Request} {a : Answer}
    (hreach : f.isReachable) (h : Resumes log initial r a) {since : String} (hasked : r.option? "since" = some since) :
    ∃ m ≤ (dueAfter log initial since).length,
      f.outcome (.whole a) = (((dueAfter log initial since).take m).map change, none)
        ∧ ∀ lines ending, a = .answered 200 (bytes lines) ending → Spells (dueAfter log initial since) lines →
          m = (dueAfter log initial since).length := by
  rw [outcome, if_pos hreach]
  cases h with
  | refused => exact ⟨0, Nat.zero_le _, rfl, fun _ _ heq _ => by cases heq⟩
  | silent => exact ⟨0, Nat.zero_le _, rfl, fun _ _ heq _ => by cases heq⟩
  | @other status body ending hstatus =>
    have hlines : (Arrival.whole (.answered status body ending)).lines = [] := by
      rw [Arrival.whole, Arrival.lines]
      intro _ _ heq
      exact absurd (Arrival.answered.inj heq).1 hstatus
    rw [hlines]
    exact ⟨0, Nat.zero_le _, rfl, fun _ _ heq _ => absurd (Answer.answered.inj heq).1 hstatus⟩
  | @stream since' lines body ending hsince hspells hcut =>
    obtain rfl : since' = since := Option.some.inj (hsince.symm.trans hasked)
    rw [Arrival.lines_whole]
    obtain ⟨m, hm, hread, -⟩ := read_bytes hspells hcut ending
    refine ⟨m, hm, hread, fun lines' ending' heq hspells' => ?_⟩
    obtain ⟨-, rfl, -⟩ := Answer.answered.inj heq
    obtain ⟨m', -, hread', hfull⟩ := read_bytes hspells' List.prefix_rfl ending
    have hlength := congrArg (fun p => p.1.length) (hread.symm.trans hread')
    simp only [List.length_map, List.length_take, hfull rfl] at hlength
    omega

/-- A worker has delivered a beginning of a log. -/
structure Progress (log : List (LogRecord f.lineReader)) (w : Worker ε) (done rest : List (LogRecord f.lineReader)) :
    Prop where
  parts : done ++ rest = log
  delivered : w.delivered = done.map change
  cursor : w.cursor = lastPosition f.request.since (done.map change)
  unfailed : ∀ e, w.phase ≠ .failed e

theorem progress_start (log : List (LogRecord f.lineReader)) : f.Progress log f.start [] log :=
  ⟨rfl, rfl, rfl, nofun⟩

variable {f} in
/-- What comes after the cursor is what has not been delivered. -/
theorem Progress.dueAfter_cursor {log done rest : List (LogRecord f.lineReader)} {w : Worker ε}
    (h : f.Progress log w done rest) (hdistinct : (log.map position).Nodup)
    (hinitial : f.request.since ∉ log.map position) : dueAfter log f.request.since w.cursor.text = rest := by
  obtain rfl := h.parts
  rw [h.cursor, dueAfter_lastPosition hdistinct hinitial]

/-- **One connection more goes on where the last one left off.** -/
theorem progress_step {log done rest : List (LogRecord f.lineReader)} {w : Worker ε} (h : f.Progress log w done rest)
    (hdistinct : (log.map position).Nodup) (hinitial : f.request.since ∉ log.map position) {a : Answer}
    (hserver : w.phase = .waiting → ∀ r, f.requestAt w.cursor = some r → Resumes log f.request.since r a) :
    ∃ m ≤ rest.length, f.Progress log (f.step w a) (done ++ rest.take m) (rest.drop m)
      ∧ ∀ lines ending, w.phase = .waiting → f.isReachable → a = .answered 200 (bytes lines) ending →
        Spells rest lines → m = rest.length := by
  have hdue : dueAfter log f.request.since w.cursor.text = rest := h.dueAfter_cursor hdistinct hinitial
  by_cases hw : w.phase = .waiting
  · have houtcome : ∃ m ≤ rest.length, f.outcome (.whole a) = ((rest.take m).map change, none)
        ∧ ∀ lines ending, f.isReachable → a = .answered 200 (bytes lines) ending → Spells rest lines →
          m = rest.length := by
      have hsome := f.isSome_requestAt w.cursor
      cases hr : f.requestAt w.cursor with
      | none =>
        rw [hr] at hsome
        exact ⟨0, Nat.zero_le _, by simp [outcome, ← hsome], fun _ _ hreach => by simp [← hsome] at hreach⟩
      | some r =>
        rw [hr] at hsome
        have hasked : r.option? "since" = some w.cursor.text :=
          Client.option?_of_request? hr (f.request.lookup_since w.cursor)
        obtain ⟨m, hm, hread, hfull⟩ := f.outcome_of_resumes hsome.symm (hserver hw r hr) hasked
        rw [hdue] at hm hread hfull
        exact ⟨m, hm, hread, fun lines ending _ => hfull lines ending⟩
    obtain ⟨m, hm, hread, hfull⟩ := houtcome
    obtain ⟨hcursor, hdelivered, -, -, hfailed⟩ := f.step_waiting hw (.whole a)
    rw [Arrival.answer_whole] at hcursor hdelivered hfailed
    rw [hread] at hcursor hdelivered hfailed
    refine ⟨m, hm, ?_, fun lines ending _ => hfull lines ending⟩
    constructor
    case parts => rw [List.append_assoc, List.take_append_drop, h.parts]
    case delivered => rw [hdelivered, h.delivered, List.map_append]
    case cursor => rw [hcursor, h.cursor, List.map_append, lastPosition_append]
    case unfailed =>
      intro e he
      cases (hfailed e).1 he
  · refine ⟨0, Nat.zero_le _, ?_, fun _ _ hw' => absurd hw' hw⟩
    rw [f.step_of_ne_waiting hw, List.take_zero, List.append_nil, List.drop_zero]
    exact h

theorem run_concat (answers : List Answer) (a : Answer) : f.run (answers ++ [a]) = f.step (f.run answers) a :=
  List.foldl_concat ..

/-- Whatever the connections were, there is such a beginning, and nothing is left once a stream came through as a
whole. -/
theorem exists_progress {log : List (LogRecord f.lineReader)} (hdistinct : (log.map position).Nodup)
    (hinitial : f.request.since ∉ log.map position) (answers : List Answer)
    (hserver : ∀ before a, before ++ [a] <+: answers → (f.run before).phase = .waiting →
      ∀ r, f.requestAt (f.run before).cursor = some r → Resumes log f.request.since r a) :
    ∃ done rest, f.Progress log (f.run answers) done rest
      ∧ ∀ before lines ending, before ++ [.answered 200 (bytes lines) ending] <+: answers →
        (f.run before).phase = .waiting → f.isReachable →
          Spells (dueAfter log f.request.since (f.run before).cursor.text) lines → rest = [] := by
  induction answers using List.reverseRecOn with
  | nil => exact ⟨[], log, f.progress_start log, fun _ _ _ h => absurd (List.prefix_nil.1 h) (by simp)⟩
  | append_singleton answers a ih =>
    obtain ⟨done, rest, hprogress, hfull⟩ :=
      ih fun before a' h => hserver before a' (h.trans (List.prefix_append _ _))
    have hnow := hserver answers a List.prefix_rfl
    obtain ⟨m, hm, hstep, hwhole⟩ := f.progress_step hprogress hdistinct hinitial hnow
    rw [f.run_concat]
    refine ⟨_, _, hstep, fun before lines ending hbefore hw hreach hspells => ?_⟩
    rcases List.prefix_concat_iff.1 hbefore with heq | hbefore
    · obtain ⟨hbefore, heq⟩ := List.append_inj' heq rfl
      have ha : a = .answered 200 (bytes lines) ending := (List.singleton_inj.1 heq).symm
      rw [hbefore] at hw hspells
      rw [hprogress.dueAfter_cursor hdistinct hinitial] at hspells
      rw [hwhole lines ending hw hreach ha hspells, List.drop_length]
    · rw [hfull before lines ending hbefore hw hreach hspells, List.drop_nil]

/-- **Nothing of a log is lost or repeated**, whatever becomes of the connections. What a feed has delivered is a
beginning of the log, its cursor is the position of the last record of it, which is what the next connection asks to go
on from, and the feed does not fail; and once a stream comes through as a whole, the log is delivered to its end. -/
theorem resume (log : List (LogRecord f.lineReader)) (hdistinct : (log.map position).Nodup)
    (hinitial : f.request.since ∉ log.map position) (answers : List Answer)
    (hserver : ∀ before a, before ++ [a] <+: answers → (f.run before).phase = .waiting →
      ∀ r, f.requestAt (f.run before).cursor = some r → Resumes log f.request.since r a) :
    ∃ done, done <+: log ∧ (f.run answers).delivered = done.map change
      ∧ (f.run answers).cursor = (done.getLast?.map position).getD f.request.since
      ∧ (∀ r, f.requestAt (f.run answers).cursor = some r →
        r.option? "since" = some ((done.getLast?.map position).getD f.request.since).text)
      ∧ (∀ e, (f.run answers).phase ≠ .failed e)
      ∧ ∀ before lines ending, before ++ [.answered 200 (bytes lines) ending] <+: answers →
        (f.run before).phase = .waiting → f.isReachable →
          Spells (dueAfter log f.request.since (f.run before).cursor.text) lines → done = log := by
  obtain ⟨done, rest, hprogress, hfull⟩ := f.exists_progress hdistinct hinitial answers hserver
  have hcursor : (f.run answers).cursor = (done.getLast?.map position).getD f.request.since := by
    rw [hprogress.cursor, lastPosition_map]
  refine ⟨done, ⟨rest, hprogress.parts⟩, hprogress.delivered, hcursor, fun r hr => ?_, hprogress.unfailed, ?_⟩
  · rw [← hcursor]
    exact Client.option?_of_request? hr (f.request.lookup_since _)
  · intro before lines ending hbefore hw hreach hspells
    rw [← hprogress.parts, hfull before lines ending hbefore hw hreach hspells, List.append_nil]

/-- A feed of a database from its beginning, without documents. -/
def sample : Feed Unit where
  client := .sample
  database := ⟨"db"⟩
  request := { since := .zero }
  dispatch := {}
  settings := {}

/-- A record of a document that was created. -/
def sampleRecord (text : List Char) (id : DocId) (position : Sequence) (opens : text.head? = some '\x7b')
    (closes : text.getLast? = some '\x7d') (oneLine : '\n' ∉ text)
    (isRecord : ChangeRecord.ofLine? text = some ⟨some position, id, [], false, none⟩) :
    LogRecord sample.lineReader where
  text
  opens
  closes
  oneLine
  record := ⟨some position, id, [], false, none⟩
  isRecord
  position
  hasPosition := rfl
  change := ⟨some position, id, [], false, none⟩
  isChange := rfl

/-- A log of two records, the second with a character of two bytes. -/
def sampleLog : List (LogRecord sample.lineReader) :=
  [sampleRecord "\x7b\"seq\":\"1-g\",\"id\":\"a\"\x7d".toList ⟨"a"⟩ ⟨"1-g"⟩ rfl rfl (by decide) (by decide +kernel),
    sampleRecord "\x7b\"seq\":2,\"id\":\"é\"\x7d".toList ⟨"é"⟩ ⟨"2"⟩ rfl rfl (by decide) (by decide +kernel)]

/-- A stream of the log that breaks in the middle of the character. -/
def brokenStream : Answer := .answered 200 ((bytes (sampleLog.map text)).take 39) .cut

/-- A whole stream of the second record, after a sign of life. -/
def wholeStream : Answer := .answered 200 (bytes ([] :: (sampleLog.drop 1).map text)) .closed

/-- The log is delivered, each record once, across the break. -/
theorem resume_sampleLog : (sample.run [brokenStream, wholeStream]).delivered = sampleLog.map change
    ∧ (sample.run [brokenStream, wholeStream]).cursor = ⟨"2"⟩ := by
  have hspells : Spells (sampleLog.drop 1) ([] :: (sampleLog.drop 1).map text) := ⟨by decide +kernel, by decide +kernel⟩
  have hdue : dueAfter sampleLog .zero "1-g" = sampleLog.drop 1 := by
    simp [dueAfter, sampleLog, sampleRecord, Sequence.zero]
  have hcursor : (sample.run [brokenStream]).cursor = ⟨"1-g"⟩ := by decide +kernel
  have hserver : ∀ before a, before ++ [a] <+: [brokenStream, wholeStream] → (sample.run before).phase = .waiting →
      ∀ r, sample.requestAt (sample.run before).cursor = some r → Resumes sampleLog .zero r a := by
    intro before a hbefore _ r hr
    have hsince : r.option? "since" = some (sample.run before).cursor.text :=
      Client.option?_of_request? hr (sample.request.lookup_since _)
    have hsplit : before ++ [a] <+: ([] ++ [brokenStream]) ++ [wholeStream] := hbefore
    rcases List.prefix_concat_iff.1 hsplit with heq | hsplit
    · obtain ⟨rfl, hlast⟩ := List.append_inj' heq rfl
      obtain rfl := List.singleton_inj.1 hlast
      rw [List.nil_append, hcursor] at hsince
      exact .stream hsince (hdue ▸ hspells) List.prefix_rfl
    · rcases List.prefix_concat_iff.1 hsplit with heq | hsplit
      · obtain ⟨rfl, hlast⟩ := List.append_inj' heq rfl
        obtain rfl := List.singleton_inj.1 hlast
        exact .stream hsince ⟨by decide +kernel, by decide +kernel⟩ (List.take_prefix 39 (bytes (sampleLog.map text)))
      · exact absurd (List.prefix_nil.1 hsplit) (by simp)
  obtain ⟨done, hdone, hdelivered, hlast, -, -, hwhole⟩ :=
    resume sample sampleLog (by decide +kernel) (by decide +kernel) [brokenStream, wholeStream] hserver
  have hall : done = sampleLog := by
    refine hwhole [brokenStream] _ .closed List.prefix_rfl (by decide +kernel) (by decide +kernel) ?_
    rw [hcursor]
    exact hdue ▸ hspells
  exact ⟨hall ▸ hdelivered, by rw [hlast, hall]; rfl⟩

end Feed
end DocClient
