/-
# What a tail prints

A tail of a feed that can be started prints what the feed delivers and nothing else, and nothing that the server does
makes it fail (`Tail.prints_feed`):

| the output | the lines that get through | how it ends |
| --- | --- | --- |
| takes every line, and as many changes come as were asked for | one for each of them | so many were printed |
| takes every line, and fewer come or no number was asked for | one for each that comes | it waits |
| fails at a line | those before it | the fault of the output |

Each connection brings its records in order, from the first connection to the next; the document of a record is printed
as it is stored if documents were asked for, the record is no deletion, and the document names a class. A line is the
compact text of its change and has no newline inside, and different changes make different values.
-/

import DocClient.Proofs.Feed.Failing
import DocClient.Proofs.Json.Printer
import DocClient.Tail

namespace DocClient
namespace Tail

/-! ### Lines -/

/-- A line has no control character, so it is one line. -/
theorem plain_line (c : Change Object) : Text.Plain (line c).toList := by
  rw [line, Json.compact, String.toList_ofList]
  exact Json.plain_text (format c)

/-- The entries that a change is made into. -/
def entries (c : Change Object) : List (String × Option Json) :=
  [("seq", some (c.seq.elim .null fun s => .str s.text)), ("id", some (.str c.id.text)),
    ("changes", some (Json.ofRevisions c.revisions)), ("deleted", some (.bool c.deleted)), ("doc", c.doc.map .obj)]

theorem nodup_entries (c : Change Object) : ((entries c).map Prod.fst).Nodup := by
  have hkeys : (entries c).map Prod.fst = ["seq", "id", "changes", "deleted", "doc"] := rfl
  rw [hkeys]
  decide

/-- **Different changes make different values.** -/
theorem format_injective : Function.Injective format := by
  intro c d h
  have hlookup : ∀ key, ((entries c).lookup key).join = ((entries d).lookup key).join := by
    intro key
    rw [← Table.get?_ofOptions (nodup_entries c) key, ← Table.get?_ofOptions (nodup_entries d) key]
    exact congrArg (Table.get? key) (Json.obj.inj h)
  obtain ⟨cseq, cid, crevs, cdeleted, cdoc⟩ := c
  obtain ⟨dseq, did, drevs, ddeleted, ddoc⟩ := d
  have hseq : cseq = dseq := by
    have hvalue : cseq.elim Json.null (fun s => .str s.text) = dseq.elim Json.null fun s => .str s.text :=
      Option.some.inj (hlookup "seq")
    cases cseq <;> cases dseq <;> simp_all [Sequence.text_inj]
  have hid : cid = did := congrArg DocId.mk (Json.str.inj (Option.some.inj (hlookup "id")))
  have hrevs : crevs = drevs := by
    have hvalue : Json.ofRevisions crevs = Json.ofRevisions drevs := Option.some.inj (hlookup "changes")
    have htexts : crevs.map Revision.text = drevs.map Revision.text :=
      List.map_injective_iff.2 (fun _ _ => Json.str.inj) (Json.arr.inj hvalue)
    exact List.map_injective_iff.2 (fun _ _ => congrArg Revision.mk) htexts
  have hdeleted : cdeleted = ddeleted := Json.bool.inj (Option.some.inj (hlookup "deleted"))
  have hdoc : cdoc = ddoc := by
    have hvalue : cdoc.map Json.obj = ddoc.map Json.obj := hlookup "doc"
    exact Option.map_injective (fun _ _ => Json.obj.inj) hvalue
  rw [hseq, hid, hrevs, hdeleted, hdoc]

/-! ### The changes that are due -/

variable {limit : Option Nat} {output : Output}

/-- Once there are enough changes, what comes later is not due. -/
theorem due_append_of_isEnough {changes : List (Change Object)} (h : isEnough limit changes.length = true)
    (later : List (Change Object)) : due limit (changes ++ later) = due limit changes := by
  cases limit with
  | none => exact nomatch h
  | some n => exact List.take_append_of_le_length (of_decide_eq_true h)

/-- A worker that has delivered enough makes no connection more. -/
theorem foldl_of_isEnough (f : Feed Object) {w : Worker Object} (h : isEnough limit w.delivered.length = true)
    (answers : List Answer) :
    answers.foldl (fun w answer => if isEnough limit w.delivered.length then w else f.step w answer) w = w := by
  induction answers with
  | nil => rfl
  | cons a rest ih => rw [List.foldl_cons, if_pos h, ih]

/-- **What is due does not depend on the connections after the one that brought enough.** -/
theorem due_runUntil (limit : Option Nat) (f : Feed Object) (replies : List Arrival) :
    due limit (f.runUntil (fun w => isEnough limit w.delivered.length) (replies.map Arrival.answer)).delivered
      = due limit (f.run (replies.map Arrival.answer)).delivered := by
  have hfold : ∀ w : Worker Object, due limit ((replies.map Arrival.answer).foldl
      (fun w answer => if isEnough limit w.delivered.length then w else f.step w answer) w).delivered
        = due limit (f.after w replies).delivered := by
    intro w
    induction replies generalizing w with
    | nil => rfl
    | cons a rest ih =>
      by_cases henough : isEnough limit w.delivered.length = true
      · rw [foldl_of_isEnough f henough, (f.account_after w (a :: rest)).delivered, due_append_of_isEnough henough]
      · rw [List.map_cons, List.foldl_cons, if_neg henough]
        exact ih _
  exact hfold f.start

/-! ### Writing -/

/-- Lines that the output takes are written, and then the others. -/
theorem write_append (before rest : List String) {done : Nat} (h : ∀ k < before.length, output (done + k) = none) :
    write output done (before ++ rest)
      = (before ++ (write output (done + before.length) rest).1, (write output (done + before.length) rest).2) := by
  induction before generalizing done with
  | nil => rfl
  | cons line before ih =>
    have hfirst : output done = none := h 0 (Nat.zero_lt_succ _)
    have hrest : ∀ k < before.length, output (done + 1 + k) = none := by
      intro k hk
      rw [Nat.add_assoc, Nat.add_comm 1 k]
      exact h (k + 1) (Nat.succ_lt_succ hk)
    have hlength : done + (line :: before).length = done + 1 + before.length := by
      rw [List.length_cons]
      omega
    rw [List.cons_append, write, hfirst, ih hrest, hlength]
    rfl

/-! ### Documents as they are stored -/

/-- The change that is printed for a record. -/
def shown (l : LineReader Object) (r : ChangeRecord) : Change Object := r.withDoc (l.wanted? r)

/-- Every record is delivered, with its document as it is stored if that is wanted. -/
theorem change_eq {l : LineReader Object} (h : l.dispatch = dispatch) (r : ChangeRecord) :
    l.change r = .ok (shown l r) := by
  rw [LineReader.change, shown]
  cases hwanted : l.wanted? r with
  | none => rfl
  | some document =>
    obtain ⟨-, hasked⟩ := Option.filter_eq_some_iff.1 hwanted
    obtain ⟨className, hclass⟩ := Option.isSome_iff_exists.1 (Bool.and_eq_true_iff.1 hasked).2
    have hdecode : l.dispatch.decode document l.classField = .ok document := by
      rw [h, Dispatch.decode, hclass]
      rfl
    simp only [hdecode, Outcome.map_ok]

variable {f : Feed Object}

/-- A connection delivers all its records and does not fail. -/
theorem outcome_eq (h : f.dispatch = dispatch) (a : Arrival) :
    f.outcome a = ((f.recordsOf a).map (shown f.lineReader), none) := by
  have hchange : f.lineReader.change = fun r => .ok (shown f.lineReader r) := funext (change_eq h)
  rw [Feed.outcome_eq, hchange, Outcome.collect_map_ok]

theorem passes_eq (h : f.dispatch = dispatch) : f.passes = fun a => !f.hangs a := by
  funext a
  rw [Feed.passes, outcome_eq h]
  rfl

/-- **What comes of the connections:** their records in order, one connection after the other, up to one that holds the
worker up. -/
theorem delivered_eq (h : f.dispatch = dispatch) (replies : List Arrival) :
    (f.run (replies.map Arrival.answer)).delivered
      = (replies.takeWhile fun a => !f.hangs a).flatMap fun a => (f.recordsOf a).map (shown f.lineReader) := by
  have haccount := f.account_after f.start replies
  have hwaits : f.start.phase = .waiting := rfl
  have hmade := haccount.made
  rw [if_pos hwaits, passes_eq h] at hmade
  have hdelivered : (f.run (replies.map Arrival.answer)).delivered = f.changesOf (f.connections f.start replies) :=
    haccount.delivered
  have hchanges : f.changesOf (f.connections f.start replies)
      = ((f.connections f.start replies).map Prod.snd).flatMap fun a => (f.recordsOf a).map (shown f.lineReader) := by
    rw [Feed.changesOf, List.flatMap_map]
    simp only [outcome_eq h]
  have hlast : ((replies.dropWhile fun a => !f.hangs a).take 1).flatMap
      (fun a => (f.recordsOf a).map (shown f.lineReader)) = [] := by
    cases hrest : replies.dropWhile fun a => !f.hangs a with
    | nil => rfl
    | cons a rest =>
      have hhangs : f.hangs a = true := by
        have hnot := List.head_dropWhile_not (fun a => !f.hangs a) (l := replies) (by simp [hrest])
        simpa [hrest] using hnot
      simp [f.recordsOf_of_hangs hhangs]
  rw [hdelivered, hchanges, hmade, List.flatMap_append, hlast, List.append_nil]

/-- A connection does not make the worker fail. -/
theorem phase_step (h : f.dispatch = dispatch) {w : Worker Object} (hw : ∀ e, w.phase ≠ .failed e) (a : Arrival) :
    ∀ e, (f.step w a.answer).phase ≠ .failed e := by
  intro e he
  by_cases hwaits : w.phase = .waiting
  · have hfails := ((f.step_waiting hwaits a).2.2.2.2 e).1 he
    rw [outcome_eq h] at hfails
    exact nomatch hfails
  · rw [f.step_of_ne_waiting hwaits] at he
    exact hw e he

/-- **The worker does not fail,** however many connections it makes. -/
theorem phase_runUntil (h : f.dispatch = dispatch) (enough : Worker Object → Bool) (replies : List Arrival) (e : ClientError) :
    (f.runUntil enough (replies.map Arrival.answer)).phase ≠ .failed e := by
  have hfold : ∀ w : Worker Object, (∀ e, w.phase ≠ .failed e) → ∀ e,
      ((replies.map Arrival.answer).foldl (fun w answer => if enough w then w else f.step w answer) w).phase
        ≠ .failed e := by
    induction replies with
    | nil => exact fun w hw => hw
    | cons a rest ih =>
      intro w hw
      rw [List.map_cons, List.foldl_cons]
      split
      · exact ih w hw
      · exact ih _ (phase_step h hw a)
  exact hfold f.start (fun e he => nomatch he) e

/-- **The tail does not fail for the feed.** -/
theorem ending_ne_failed (h : f.dispatch = dispatch) (limit : Option Nat) (stopped : Bool) (output : Output)
    (replies : List Arrival) (e : ClientError) :
    (run f limit stopped output (replies.map Arrival.answer)).ending ≠ .failed (.feed e) := by
  have hphase := phase_runUntil h (fun w => isEnough limit w.delivered.length) replies e
  rw [run]
  split
  · exact fun hend => nomatch hend
  · simp only [ending]
    split
    · exact fun hend => nomatch hend
    · split
      · exact fun hend => nomatch hend
      · split
        · rename_i e' hw
          rintro ⟨⟩
          exact hphase hw
        · exact fun hend => nomatch hend

/-! ### The whole tail -/

/-- **What a tail comes to**, given the changes that come, how many were asked for and how the output fails. -/
structure Faithful (changes : List (Change Object)) (limit : Option Nat) (output : Output) (r : Run) : Prop where
  /-- If the output takes every line that is due, there is one line for each change. -/
  whole : (∀ k < (due limit changes).length, output k = none) →
    r.lines = (due limit changes).map line ∧ r.unflushed = none
  /-- Then it ends when as many came as were asked for. -/
  printed : (∀ k < (due limit changes).length, output k = none) → ∀ n, limit = some n → n ≤ changes.length →
    r.ending = .printed n
  /-- And it waits if fewer came, or if no number was asked for. -/
  waits : (∀ k < (due limit changes).length, output k = none) → (∀ n, limit = some n → changes.length < n) →
    r.ending = .waiting changes.length
  /-- If the output fails at a line, the lines before it got through, and the fault is what the tail fails with. -/
  broken : ∀ before c after fault, due limit changes = before ++ c :: after → (∀ k < before.length, output k = none) →
    output before.length = some fault →
    r.lines = before.map line ∧ r.unflushed = fault.left? (line c) ∧ r.ending = .failed (.output fault)

/-- The changes that are due are as many as were asked for, or all. -/
theorem due_eq_self {changes : List (Change Object)} (h : ∀ n, limit = some n → changes.length < n) :
    due limit changes = changes := by
  cases limit with
  | none => rfl
  | some n => exact List.take_of_length_le (Nat.le_of_lt (h n rfl))

/-- **A tail whose feed does not fail comes to what it should.** -/
theorem faithful_run (h : f.dispatch = dispatch) (limit : Option Nat) (output : Output) (replies : List Arrival) :
    Faithful (f.run (replies.map Arrival.answer)).delivered limit output
      (run f limit false output (replies.map Arrival.answer)) := by
  have hdue := due_runUntil limit f replies
  have hphase := phase_runUntil h (fun w => isEnough limit w.delivered.length) replies
  generalize (f.run (replies.map Arrival.answer)).delivered = changes at hdue
  simp only [run, Bool.false_eq_true, if_false]
  generalize f.runUntil (fun w => isEnough limit w.delivered.length) (replies.map Arrival.answer) = w at hdue hphase
  rw [hdue]
  have hwrite : (∀ k < (due limit changes).length, output k = none) →
      write output 0 ((due limit changes).map line) = ((due limit changes).map line, none) := by
    intro hall
    have htakes : ∀ k < ((due limit changes).map line).length, output (0 + k) = none := by simpa using hall
    simpa [write] using write_append ((due limit changes).map line) [] htakes
  constructor
  case whole =>
    intro hall
    simp [hwrite hall]
  case printed =>
    rintro hall n rfl hn
    have hlength : ((due (some n) changes).map line).length = n := by simp [due, hn]
    rw [hwrite hall]
    simp only [ending, Option.map_none, hlength, isEnough, le_refl, decide_true, if_true]
  case waits =>
    intro hall hfew
    rw [hwrite hall, due_eq_self hfew]
    have hnot : isEnough limit changes.length = false := by
      cases limit with
      | none => rfl
      | some n => exact decide_eq_false (Nat.not_le.2 (hfew n rfl))
    simp only [ending, Option.map_none, List.length_map, hnot]
    cases hw : w.phase with
    | failed e => exact absurd hw (hphase e)
    | _ => rfl
  case broken =>
    intro before c after fault heq hbefore hfault
    have htakes : ∀ k < (before.map line).length, output (0 + k) = none := by simpa using hbefore
    rw [heq, List.map_append, write_append (before.map line) ((c :: after).map line) htakes]
    simp [write, hfault, ending]

/-- **A tail starts** with settings that can be used, a database that is named, and wanted documents that are. -/
theorem feed_eq_ok {a : TailArguments} (hsettings : a.settings.refusal? = none)
    (hdatabase : Text.isBlank a.database = false) (hids : ∀ id ∈ a.docIds, Text.isBlank id = false) :
    feed a = .ok ⟨⟨a.settings, hsettings⟩, ⟨a.database⟩, a.request, dispatch, {}⟩ := by
  have hname : checkName .database a.database = .ok a.database := by
    rw [checkName, hdatabase]
    rfl
  have hwanted : a.request.docIds.any DocId.isBlank = false := by
    have hrequest : a.request.docIds = a.docIds.map DocId.mk := rfl
    rw [hrequest, List.any_map, List.any_eq_false]
    intro id hid
    simp [DocId.isBlank, hids id hid]
  have hcheck : Client.checkFeed ⟨a.database⟩ a.request = .ok () := by
    rw [Client.checkFeed, hwanted, DatabaseName.isBlank, hdatabase]
    rfl
  have hfollow : ∀ c : Client, c.follow ⟨a.database⟩ a.request dispatch {}
      = .ok ⟨c, ⟨a.database⟩, a.request, dispatch, {}⟩ := by
    intro c
    rw [Client.follow, hcheck]
    rfl
  rw [feed, Client.ofSettings_eq_ok hsettings, hname]
  exact congrArg (Except.mapError TailError.start) (hfollow _)

/-- What the consumer of the feed of a tail is given, in any order of moves, is the beginning of what is delivered, and
what the worker reports when it stopped is no failure. -/
theorem received_of_run {f : Feed Object} (h : f.dispatch = dispatch) (replies : List Arrival) {moves : List Move}
    {s : Subscription Object}
    (hrun : (Subscription.ofFeed f (replies.map Arrival.answer)).run? moves = some s) :
    s.received <+: (f.run (replies.map Arrival.answer)).delivered ∧ ∀ r, s.result? = some r → r = .ok () := by
  have hphase : ∀ e, (f.run (replies.map Arrival.answer)).phase ≠ .failed e :=
    phase_runUntil h (fun _ => false) replies
  obtain ⟨read, withheld, haccount⟩ := Subscription.exists_account hrun
  refine ⟨⟨s.channel ++ s.lost ++ withheld ++ s.upcoming, ?_⟩, fun r hr => ?_⟩
  · have hupcoming : read ++ s.upcoming = (f.run (replies.map Arrival.answer)).delivered := haccount.read_upcoming
    rw [← hupcoming, ← haccount.places]
    simp only [List.append_assoc]
  · rcases (Subscription.reports_of_run hrun).done r hr with ⟨rfl, -⟩ | ⟨e, -, hfailure, -⟩
    · rfl
    · exact absurd (Subscription.failure_ofFeed.1 hfailure) (hphase e)

/-- **What a tail prints is what its feed delivers.** For any arguments that a tail can start with, any answers to its
connections, any number of changes that was asked for and any output: there is one line for each of the first changes,
in order and across connections, until the output fails or the number is reached; the changes are the records of the
connections, each with its document as it is stored where one is wanted; the server cannot make the tail fail; and each
line is one line and tells its change. -/
theorem prints_feed (a : TailArguments) (hsettings : a.settings.refusal? = none)
    (hdatabase : Text.isBlank a.database = false) (hids : ∀ id ∈ a.docIds, Text.isBlank id = false) :
    ∃ f : Feed Object, feed a = .ok f ∧ f.lineReader = ⟨a.includeDocs, a.classField, dispatch⟩
      ∧ (∀ replies : List Arrival,
        (f.run (replies.map Arrival.answer)).delivered
            = (replies.takeWhile fun r => !f.hangs r).flatMap (fun r => (f.recordsOf r).map (shown f.lineReader))
          ∧ (∀ limit output, Faithful (f.run (replies.map Arrival.answer)).delivered limit output
              (run f limit false output (replies.map Arrival.answer)))
          ∧ (∀ limit stopped output e,
              (run f limit stopped output (replies.map Arrival.answer)).ending ≠ .failed (.feed e))
          ∧ (∀ output, (run f (some 0) false output (replies.map Arrival.answer)).lines = []
              ∧ (run f (some 0) false output (replies.map Arrival.answer)).ending = .printed 0)
          ∧ ∀ moves s, (Subscription.ofFeed f (replies.map Arrival.answer)).run? moves = some s →
              s.received <+: (f.run (replies.map Arrival.answer)).delivered ∧ ∀ r, s.result? = some r → r = .ok ())
      ∧ (∀ c, '\n' ∉ (line c).toList) ∧ Function.Injective format := by
  refine ⟨_, feed_eq_ok hsettings hdatabase hids, rfl, fun replies => ?_, fun c => (plain_line c).newline_not_mem,
    format_injective⟩
  generalize hf : (⟨⟨a.settings, hsettings⟩, ⟨a.database⟩, a.request, dispatch, {}⟩ : Feed Object) = f
  have hdispatch : f.dispatch = dispatch := hf ▸ rfl
  refine ⟨delivered_eq hdispatch replies, fun limit output => faithful_run hdispatch limit output replies,
    fun limit stopped output e => ending_ne_failed hdispatch limit stopped output replies e, fun output => ?_,
    fun moves s => received_of_run hdispatch replies⟩
  have hzero := faithful_run hdispatch (some 0) output replies
  have hnone : ∀ k < (due (some 0) (f.run (replies.map Arrival.answer)).delivered).length, output k = none :=
    fun k hk => absurd hk (Nat.not_lt_zero k)
  exact ⟨(hzero.whole hnone).1, hzero.printed hnone 0 rfl (Nat.zero_le _)⟩

/-- A tail that asks for documents. -/
def sampleArguments : TailArguments := { database := "db", includeDocs := true }

/-- A connection that breaks in the middle of its second line, an error of the server, and a connection that goes on. -/
def sampleReplies : List Arrival :=
  [.answered 200 [Text.encode "\x7b\"seq\":1,\"id\":\"a\"\x7d\n\x7b\"se".toList] .cut, .answered 503 [[0x78]] .closed,
    .answered 200 [Text.encode ("\x7b\"seq\":\"2-b\",\"id\":\"b\",\"doc\":\x7b\"class__\":\"C\",\"t\":\"\\n\"\x7d\x7d\n"
      ++ "\x7b\"seq\":3,\"id\":\"c\"\x7d\n").toList] .closed]

/-- Two changes are printed of the three that come, one of each connection that brings some. -/
theorem prints_feed_sample : ∃ f, feed sampleArguments = .ok f
    ∧ (run f (some 2) false (fun _ => none) (sampleReplies.map Arrival.answer)).lines
      = ["\x7b\"changes\":[],\"deleted\":false,\"id\":\"a\",\"seq\":\"1\"\x7d",
        "\x7b\"changes\":[],\"deleted\":false,\"doc\":\x7b\"class__\":\"C\",\"t\":\"\\n\"\x7d,\"id\":\"b\",\"seq\":\"2-b\"\x7d"]
    ∧ (run f (some 2) false (fun _ => none) (sampleReplies.map Arrival.answer)).ending = .printed 2 := by
  obtain ⟨f, hf, -, hprints, -⟩ := prints_feed sampleArguments (by decide) (by decide) nofun
  obtain ⟨-, hfaithful, -⟩ := hprints sampleReplies
  obtain rfl : f = ⟨⟨sampleArguments.settings, by decide⟩, ⟨"db"⟩, sampleArguments.request, dispatch, {}⟩ :=
    Except.ok.inj (hf.symm.trans (feed_eq_ok (by decide) (by decide) nofun))
  have h := hfaithful (some 2) fun _ => none
  refine ⟨_, hf, (h.whole fun _ _ => rfl).1.trans (by decide +kernel), h.printed (fun _ _ => rfl) 2 rfl ?_⟩
  decide +kernel

end Tail
end DocClient
