/-
# Why a feed fails

Much can go wrong in a connection, and nearly all of it is passed over or leads to the next connection. What ends a feed
is a record whose document is to be decoded and cannot be (`LineReader.Undecodable`), and nothing else:

| what goes wrong | what becomes of the feed |
| --- | --- |
| no connection, another status, silence, a broken body, a line that is not UTF-8 | it connects again |
| a line that is no JSON, no object or no change, or that reports an error | the line is passed over |
| a document that names no class | the change is delivered without it |
| a document of an unknown class, or of another shape than its class has | it fails, there and then |

A feed that fails has delivered the records up to that one, stands at the last position among them and sends nothing
more (`Feed.FailsAt`, `Feed.fails_only_at_documents`). The worker reports the failure once it has handed over all of
them, and nothing else unless the feed is cancelled or left.
-/

import DocClient.Proofs.Dispatch
import DocClient.Proofs.Feed.Pulling

namespace DocClient

variable {ε : Type}

/-- The values of steps that go through are all collected. -/
theorem Outcome.collect_map_ok {α β δ : Type} (f : α → β) (xs : List α) :
    collect (xs.map fun x => (.ok (f x) : Except δ β)) = (xs.map f, none) := by
  induction xs with
  | nil => rfl
  | cons x rest ih => rw [List.map_cons, List.map_cons, collect, ih]

/-- The values of some steps are collected up to the first step that fails. -/
theorem Outcome.collect_map_eq {α β : Type} {f : α → Outcome β} {xs : List α} {values : List β} {e : ClientError} :
    collect (xs.map f) = (values, some e)
      ↔ ∃ good bad rest, xs = good ++ bad :: rest ∧ good.mapM f = .ok values ∧ f bad = .error e := by
  constructor
  · intro h
    induction xs generalizing values with
    | nil => exact nomatch (Prod.mk.inj h).2
    | cons x rest ih =>
      rw [List.map_cons] at h
      cases hx : f x with
      | error e' =>
        rw [hx] at h
        obtain ⟨rfl, he⟩ := Prod.mk.inj h
        obtain rfl := Option.some.inj he
        exact ⟨[], x, rest, rfl, rfl, hx⟩
      | ok value =>
        rw [hx] at h
        obtain ⟨rfl, he⟩ := Prod.mk.inj h
        obtain ⟨good, bad, more, rfl, hgood, hbad⟩ := ih (Prod.ext rfl he)
        refine ⟨x :: good, bad, more, rfl, ?_, hbad⟩
        simp [List.mapM_cons, hx, hgood]
  · rintro ⟨good, bad, rest, rfl, hgood, hbad⟩
    induction good generalizing values with
    | nil =>
      obtain rfl := Except.ok.inj hgood
      simp [hbad, collect]
    | cons x more ih =>
      rw [List.mapM_cons] at hgood
      obtain ⟨value, hx, hgood⟩ := bind_eq_ok.1 hgood
      obtain ⟨others, hmore, hgood⟩ := bind_eq_ok.1 hgood
      obtain rfl := Except.ok.inj hgood
      rw [List.cons_append, List.map_cons, hx, collect, ih hmore]

namespace LineReader

variable {l : LineReader ε}

/-- **A record cannot be delivered**: its document was asked for, it is no deletion, the document names a class by a
string, and is not decoded. -/
structure Undecodable (l : LineReader ε) (r : ChangeRecord) (e : ClientError) : Prop where
  asked : l.includeDocs = true
  live : r.deleted = false
  doc : ∃ document className, r.doc = some document ∧ document.get? l.classField = some (.str className)
    ∧ l.dispatch.decode document l.classField = .error e

/-- The records that are not delivered are those that cannot be. -/
theorem change_eq_error {r : ChangeRecord} {e : ClientError} : l.change r = .error e ↔ l.Undecodable r e := by
  rw [change]
  constructor
  · intro h
    cases hwanted : l.wanted? r with
    | none =>
      rw [hwanted] at h
      cases h
    | some document =>
      rw [hwanted] at h
      obtain ⟨hdoc, hasked⟩ := Option.filter_eq_some_iff.1 hwanted
      obtain ⟨hasked, hclass⟩ := Bool.and_eq_true_iff.1 hasked
      obtain ⟨hincludes, hlive⟩ := Bool.and_eq_true_iff.1 hasked
      obtain ⟨className, hclass⟩ := Option.isSome_iff_exists.1 hclass
      refine ⟨hincludes, by simpa using hlive, document, className, hdoc, Envelope.classOf?_eq_some.1 hclass, ?_⟩
      cases hdecode : l.dispatch.decode document l.classField with
      | ok value => simp [hdecode] at h
      | error e' =>
        simp only [hdecode, Outcome.map_error] at h
        exact congrArg Except.error (Except.error.inj h)
  · rintro ⟨hincludes, hlive, document, className, hdoc, hclass, hdecode⟩
    have hwanted : l.wanted? r = some document := by
      simp [wanted?, hdoc, hincludes, hlive, Envelope.classOf?_eq_some.2 hclass]
    rw [hwanted]
    simp only [hdecode, Outcome.map_error]

/-- A document that is not decoded has an unknown class or another shape than its class has. -/
theorem Undecodable.fault {steps : List (Dispatch.Step ε)} (hsteps : l.dispatch = Dispatch.build steps)
    {r : ChangeRecord} {e : ClientError} (h : l.Undecodable r e) :
    (∃ className id, e = .unknownClass className id) ∨ ∃ error, e = .serialization error := by
  obtain ⟨document, className, -, hclass, hdecode⟩ := h.doc
  rw [hsteps] at hdecode
  rcases (Dispatch.agrees_build steps).fault hdecode with ⟨hnot, -⟩ | ⟨_, -, rfl | ⟨error, rfl⟩⟩
  · exact absurd hclass (hnot className)
  · exact .inl ⟨_, _, rfl⟩
  · exact .inr ⟨error, rfl⟩

/-- Whatever names a class is decoded, where there is a fallback and no class has a type. -/
theorem not_undecodable_of_fallback (hnone : l.dispatch.isEmpty = true) (hfallback : l.dispatch.fallback.isSome = true)
    (r : ChangeRecord) (e : ClientError) : ¬ l.Undecodable r e := by
  rintro ⟨-, -, document, className, -, hclass, hdecode⟩
  obtain ⟨f, hf⟩ := Option.isSome_iff_exists.1 hfallback
  have hempty : l.dispatch.decoders = [] := List.isEmpty_iff.1 hnone
  have hget : l.dispatch.decoders.get? className = none := by rw [hempty]; rfl
  simp [Dispatch.decode, Envelope.classOf?_eq_some.2 hclass, hget, hf] at hdecode

end LineReader

namespace Feed

variable (f : Feed ε)

/-- The records that a connection brings. -/
def recordsOf (a : Arrival) : List ChangeRecord :=
  if f.isReachable then a.lines.filterMap ChangeRecord.ofLine? else []

/-- Nothing is read of an answer that holds the worker up. -/
theorem recordsOf_of_hangs {a : Arrival} (h : f.hangs a = true) : f.recordsOf a = [] := by
  unfold hangs at h
  split at h
  · rename_i status chunks
    have hstatus : status ≠ 200 := (of_decide_eq_true (Bool.and_eq_true_iff.1 h).2).1
    have hlines : (Arrival.answered status chunks .stalled).lines = [] := by
      rw [Arrival.lines]
      intro _ _ heq
      exact absurd (Arrival.answered.inj heq).1 hstatus
    rw [recordsOf, hlines]
    split <;> rfl
  · cases h

theorem outcome_eq (a : Arrival) : f.outcome a = Outcome.collect ((f.recordsOf a).map f.lineReader.change) := by
  rw [outcome, recordsOf]
  split <;> rfl

/-- **A feed fails at a record**: after some connections that the worker gets past, the next one brings some records
that are delivered, and then one that cannot be. -/
structure FailsAt (replies before : List Arrival) (a : Arrival) (changes : List (Change ε)) (e : ClientError) :
    Prop where
  comes : before ++ [a] <+: replies
  waits : (f.run (before.map Arrival.answer)).phase = .waiting
  record : ∃ good bad rest, f.recordsOf a = good ++ bad :: rest ∧ good.mapM f.lineReader.change = .ok changes
    ∧ f.lineReader.Undecodable bad e

/-- The cursor stands at the last position that was delivered. -/
theorem cursor_eq (replies : List Arrival) : (f.run (replies.map Arrival.answer)).cursor
    = lastPosition f.request.since (f.run (replies.map Arrival.answer)).delivered :=
  f.cursor_run _

variable {f} {replies before : List Arrival} {a : Arrival} {changes : List (Change ε)} {e : ClientError}

/-- A connection fails as it delivers some changes, if it brings the records of these and then one that cannot be
delivered. -/
theorem outcome_eq_failed : f.outcome a = (changes, some e)
    ↔ ∃ good bad rest, f.recordsOf a = good ++ bad :: rest ∧ good.mapM f.lineReader.change = .ok changes
      ∧ f.lineReader.Undecodable bad e := by
  simp only [outcome_eq, Outcome.collect_map_eq, LineReader.change_eq_error]

theorem exists_record_of_failed (h : (f.outcome a).2 = some e) :
    ∃ changes good bad rest, f.recordsOf a = good ++ bad :: rest ∧ good.mapM f.lineReader.change = .ok changes
      ∧ f.lineReader.Undecodable bad e := by
  generalize houtcome : f.outcome a = delivered at h
  obtain ⟨changes, failure⟩ := delivered
  obtain rfl : failure = some e := h
  exact ⟨changes, outcome_eq_failed.1 houtcome⟩

/-- A feed that fails stays as it is after the connection that it fails in. -/
theorem FailsAt.run_eq (h : f.FailsAt replies before a changes e) :
    f.run (replies.map Arrival.answer) = f.step (f.run (before.map Arrival.answer)) a.answer := by
  obtain ⟨later, rfl⟩ := h.comes
  obtain ⟨-, -, -, -, hfailed⟩ := f.step_waiting h.waits a
  have hend := (hfailed e).2 (congrArg Prod.snd (outcome_eq_failed.2 h.record))
  have hrun : f.run ((before ++ [a] ++ later).map Arrival.answer)
      = f.after (f.step (f.run (before.map Arrival.answer)) a.answer) later := by
    simp [run, after]
  rw [hrun, after_of_ne_waiting]
  simp [hend]

/-- **A feed that fails at a record** has delivered what came before it, stands at the last position there, and has sent
nothing since. -/
theorem FailsAt.spec (h : f.FailsAt replies before a changes e) :
    (f.run (replies.map Arrival.answer)).phase = .failed e
      ∧ (f.run (replies.map Arrival.answer)).delivered = (f.run (before.map Arrival.answer)).delivered ++ changes
      ∧ (f.run (replies.map Arrival.answer)).cursor
        = lastPosition f.request.since ((f.run (before.map Arrival.answer)).delivered ++ changes)
      ∧ (f.run (replies.map Arrival.answer)).requests
        = (f.run (before.map Arrival.answer)).requests
          ++ f.arrivals (f.run (before.map Arrival.answer)).cursor a.answer := by
  have houtcome := outcome_eq_failed.2 h.record
  obtain ⟨hcursor, hdelivered, hrequests, -, hfailed⟩ := f.step_waiting h.waits a
  have hbefore := f.cursor_eq before
  rw [houtcome] at hcursor hdelivered hfailed
  rw [h.run_eq]
  refine ⟨(hfailed e).2 rfl, hdelivered, ?_, hrequests⟩
  rw [hcursor, hbefore, lastPosition_append]

/-- **A feed fails only at a record that cannot be delivered.** The induction is on the connections: the last one is
where it fails, or it has failed before. -/
theorem failed_iff : (f.run (replies.map Arrival.answer)).phase = .failed e
    ↔ ∃ before a changes, f.FailsAt replies before a changes e := by
  refine ⟨fun h => ?_, fun ⟨before, a, changes, h⟩ => h.spec.1⟩
  induction replies using List.reverseRecOn with
  | nil => exact nomatch h
  | append_singleton replies a ih =>
    rw [List.map_append, List.map_singleton, run_concat] at h
    by_cases hw : (f.run (replies.map Arrival.answer)).phase = .waiting
    · obtain ⟨-, -, -, -, hfailed⟩ := f.step_waiting hw a
      obtain ⟨changes, hrecord⟩ := exists_record_of_failed ((hfailed e).1 h)
      exact ⟨replies, a, changes, List.prefix_rfl, hw, hrecord⟩
    · rw [f.step_of_ne_waiting hw] at h
      obtain ⟨before, b, changes, hfails⟩ := ih h
      exact ⟨before, b, changes, hfails.comes.trans (List.prefix_append ..), hfails.waits, hfails.record⟩

/-- A worker that comes to a connection with a record that cannot be delivered fails at the first of them. -/
theorem exists_failsAt (hcomes : before ++ [a] <+: replies)
    (hwaits : (f.run (before.map Arrival.answer)).phase = .waiting) {bad : ChangeRecord} (hbad : bad ∈ f.recordsOf a)
    (hundecodable : f.lineReader.Undecodable bad e) : ∃ changes e', f.FailsAt replies before a changes e' := by
  cases hend : (f.outcome a).2 with
  | some e' =>
    obtain ⟨changes, hrecord⟩ := exists_record_of_failed hend
    exact ⟨changes, e', hcomes, hwaits, hrecord⟩
  | none =>
    have hall : ∀ xs : List ChangeRecord, bad ∈ xs → (Outcome.collect (xs.map f.lineReader.change)).2 ≠ none := by
      intro xs hmem
      induction xs with
      | nil => exact nomatch hmem
      | cons x rest ih =>
        rw [List.map_cons]
        cases hx : f.lineReader.change x with
        | error e' => exact fun hnone => nomatch hnone
        | ok c =>
          rcases List.mem_cons.1 hmem with rfl | hrest
          · exact nomatch hx.symm.trans (LineReader.change_eq_error.2 hundecodable)
          · exact ih hrest
    exact absurd (outcome_eq f a ▸ hend) (hall _ hbad)

/-- **What ends a feed**, against some replies. -/
structure EndsOnlyAtDocuments (f : Feed ε) (replies : List Arrival) : Prop where
  /-- It fails just where it comes to a record that cannot be delivered. -/
  fails : ∀ e, (f.run (replies.map Arrival.answer)).phase = .failed e
    ↔ ∃ before a changes, f.FailsAt replies before a changes e
  /-- It fails at the first such record of the connection. -/
  first : ∀ before a bad e, before ++ [a] <+: replies → (f.run (before.map Arrival.answer)).phase = .waiting →
    bad ∈ f.recordsOf a → f.lineReader.Undecodable bad e → ∃ changes e', f.FailsAt replies before a changes e'
  /-- Everything before the record was delivered, the cursor has the last position there, and no further request was
  sent. -/
  there : ∀ before a changes e, f.FailsAt replies before a changes e →
    (f.run (replies.map Arrival.answer)).delivered = (f.run (before.map Arrival.answer)).delivered ++ changes
      ∧ (f.run (replies.map Arrival.answer)).cursor
        = lastPosition f.request.since (f.run (replies.map Arrival.answer)).delivered
      ∧ (f.run (replies.map Arrival.answer)).requests
        = (f.run (before.map Arrival.answer)).requests
          ++ f.arrivals (f.run (before.map Arrival.answer)).cursor a.answer
  /-- The failure is an unknown class or a shape that does not fit. -/
  fault : ∀ e, (f.run (replies.map Arrival.answer)).phase = .failed e →
    (∃ className id, e = .unknownClass className id) ∨ ∃ error, e = .serialization error
  /-- Without documents, or with a fallback for all of them, it does not fail. -/
  safe : f.request.includeDocs = false ∨ (f.dispatch.isEmpty = true ∧ f.dispatch.fallback.isSome = true) →
    ∀ e, (f.run (replies.map Arrival.answer)).phase ≠ .failed e
  /-- The worker reports that it was cancelled, or the failure after everything was handed over. -/
  reported : ∀ moves s r, (Subscription.ofFeed f (replies.map Arrival.answer)).run? moves = some s →
    s.result? = some r → (r = .ok () ∧ s.cancelled = true)
      ∨ ∃ e, r = .error e ∧ (f.run (replies.map Arrival.answer)).phase = .failed e
        ∧ s.received ++ (s.channel ++ s.lost) = (f.run (replies.map Arrival.answer)).delivered
        ∧ s.cursor = (f.run (replies.map Arrival.answer)).cursor
  /-- A failure is reported: a consumer that only asks for changes comes to where there is nothing left to wait for, and
  by then it was given all that was delivered and the worker has reported the failure, for good. -/
  told : ∀ e, (f.run (replies.map Arrival.answer)).phase = .failed e → ∀ pulls s,
    (Subscription.ofFeed f (replies.map Arrival.answer)).run? pulls = some s → Subscription.Patient pulls →
      pulls.length ≤ 4 * (f.run (replies.map Arrival.answer)).delivered.length + 1
      ∧ (s.AtRest → s.received = (f.run (replies.map Arrival.answer)).delivered ∧ s.next? = some none
        ∧ ∀ after t, s.run? after = some t → t.result? = some (.error e))

/-- **A feed fails only at documents that cannot be decoded.** Whatever is asked for, whatever the dispatch is and
whatever the server does, nothing ends the feed but the first document that has to be decoded and has an unknown class
or another shape than its class has, or that the consumer cancels it or leaves. -/
theorem fails_only_at_documents (c : Client) (db : DatabaseName) (request : FeedRequest) (settings : FeedSettings)
    (steps : List (Dispatch.Step ε)) (replies : List Arrival) :
    EndsOnlyAtDocuments (⟨c, db, request, Dispatch.build steps, settings⟩ : Feed ε) replies := by
  set f : Feed ε := ⟨c, db, request, Dispatch.build steps, settings⟩ with hf
  constructor
  case fails => exact fun e => failed_iff
  case first => exact fun before a bad e hcomes hwaits hbad h => exists_failsAt hcomes hwaits hbad h
  case there =>
    intro before a changes e h
    obtain ⟨-, hdelivered, hcursor, hrequests⟩ := h.spec
    exact ⟨hdelivered, hdelivered ▸ hcursor, hrequests⟩
  case fault =>
    intro e h
    obtain ⟨before, a, changes, hfails⟩ := failed_iff.1 h
    obtain ⟨good, bad, rest, -, -, hbad⟩ := hfails.record
    exact hbad.fault rfl
  case safe =>
    intro hsafe e h
    obtain ⟨before, a, changes, hfails⟩ := failed_iff.1 h
    obtain ⟨good, bad, rest, -, -, hbad⟩ := hfails.record
    rcases hsafe with hnot | ⟨hnone, hfallback⟩
    · exact absurd (hnot.symm.trans hbad.asked) Bool.false_ne_true
    · exact LineReader.not_undecodable_of_fallback hnone hfallback bad e hbad
  case reported =>
    intro moves s r hrun hr
    have hcursor : (f.run (replies.map Arrival.answer)).cursor
        = lastPosition request.since (f.run (replies.map Arrival.answer)).delivered := f.cursor_eq replies
    rcases (Subscription.reports_of_run hrun).done r hr with hcancelled | ⟨e, rfl, hfailure, -, hall, hat⟩
    · exact .inl hcancelled
    · refine .inr ⟨e, rfl, ?_, hall, hat.trans hcursor.symm⟩
      exact Subscription.failure_ofFeed.1 hfailure
  case told => exact fun e hfailed pulls s hrun hpatient => Subscription.told_of_failed hfailed hrun hpatient

/-- The feed outlives an error of the server and a line that is no JSON, and ends at the first document of a class that
nobody knows. -/
example :
    let w := ({ sample with request := { since := .zero, includeDocs := true } } : Feed Unit).run
      [.answered 500 [] .closed, .answered 200 (LogRecord.bytes ["\x7b\"seq\":1,\"id\":\"a\"\x7d".toList, "x".toList,
        "\x7b\"seq\":2,\"id\":\"b\",\"doc\":\x7b\"_id\":\"b\",\"class__\":\"Ghost\"\x7d\x7d".toList,
        "\x7b\"seq\":3,\"id\":\"c\"\x7d".toList]) .closed, .refused]
    (w.phase, w.delivered.map (·.id), w.cursor) = (.failed (.unknownClass "Ghost" "b"), [⟨"a"⟩], ⟨"1"⟩) := by
  decide +kernel

end Feed
end DocClient
