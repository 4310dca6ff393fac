/-
# A consumer that only asks for changes

A consumer that neither cancels the feed nor leaves it (`Patient`) is given all that the feed delivers. Every move
leaves less to be done (`Moves.left_lt`), so a run has a bounded number of moves, and when none is left to be made
(`AtRest`) one of two things is the case (`delivered_of_atRest`):

| the feed | the consumer has | asked once more | its worker reports |
| --- | --- | --- | --- |
| failed | everything | it is given nothing | the failure |
| goes on | everything | it waits | nothing yet |

A worker reports that it was cancelled, or the failure of the feed after everything was handed over (`Reports`); one
that stopped on its own has failed, and nothing that the consumer does later changes what it reports
(`reports_failure`).
-/

import DocClient.Proofs.Feed.Channel

namespace DocClient
namespace Subscription

variable {ε : Type} {s t : Subscription ε} {m : Move} {pulls after : List Move}

/-! ### What a worker reports -/

/-- **What the worker of a subscription may report**: that it was cancelled, or how the feed failed, and that only once
everything was handed over. -/
structure Reports (start s : Subscription ε) : Prop where
  failure_eq : s.failure = start.failure
  done : ∀ r, s.result? = some r → (r = .ok () ∧ s.cancelled = true)
    ∨ ∃ e, r = .error e ∧ start.failure = some e ∧ s.upcoming = []
      ∧ s.received ++ (s.channel ++ s.lost) = start.upcoming ∧ s.cursor = lastPosition start.cursor start.upcoming

theorem result?_eq_some {r : Outcome Unit} : s.result? = some r ↔ s.phase = .stopped r := by
  rw [result?]
  split <;> simp_all

/-- A subscription fails as its feed does. -/
theorem failure_ofFeed {f : Feed ε} {answers : List Answer} {e : ClientError} :
    (ofFeed f answers).failure = some e ↔ (f.run answers).phase = .failed e := by
  simp only [ofFeed]
  split <;> simp_all

/-- **Every move keeps what may be reported.** -/
theorem Reports.move {start : Subscription ε} {m : Move} {read withheld : List (Change ε)}
    (haccount : Account start s read withheld) (hm : s.Moves m t) (h : Reports start s) : Reports start t := by
  have hsame : ∀ {u : Subscription ε}, u.phase = s.phase → u.failure = s.failure → u.upcoming = s.upcoming →
      u.cursor = s.cursor → (s.cancelled = true → u.cancelled = true) →
      u.received ++ (u.channel ++ u.lost) = s.received ++ (s.channel ++ s.lost) → Reports start u := by
    intro u hphase hfailure hupcoming hcursor hcancelled hplaces
    refine ⟨hfailure.trans h.failure_eq, fun r hr => ?_⟩
    have hs : s.result? = some r := result?_eq_some.2 (hphase ▸ result?_eq_some.1 hr)
    rcases h.done r hs with ⟨rfl, hgone⟩ | ⟨e, rfl, hfail, hnone, hall, hat⟩
    · exact .inl ⟨rfl, hcancelled hgone⟩
    · exact .inr ⟨e, rfl, hfail, hupcoming.trans hnone, hplaces.trans hall, hcursor.trans hat⟩
  cases hm with
  | parse | hand => exact ⟨h.failure_eq, fun r hr => nomatch result?_eq_some.1 hr⟩
  | giveUp hholding hgone =>
    refine ⟨h.failure_eq, fun r hr => .inl ⟨?_, (haccount.gone hgone).2⟩⟩
    exact (HandPhase.stopped.inj (result?_eq_some.1 hr)).symm
  | @fail e hreading hdone hfailure =>
    obtain rfl := (withholds_reading hreading).1 haccount.withholds
    have hread : read = start.upcoming := by
      rw [← haccount.read_upcoming, hdone, List.append_nil]
    refine ⟨h.failure_eq, fun r hr => .inr ⟨e, ?_, h.failure_eq ▸ hfailure, hdone, ?_, ?_⟩⟩
    · exact (HandPhase.stopped.inj (result?_eq_some.1 hr)).symm
    · rw [← hread, ← haccount.places, List.append_nil]
    · rw [← hread]
      exact haccount.cursor_eq
  | halt hgoing hcancelled =>
    refine ⟨h.failure_eq, fun r hr => .inl ⟨?_, hcancelled⟩⟩
    exact (HandPhase.stopped.inj (result?_eq_some.1 hr)).symm
  | receive hthere hfirst => exact hsame rfl rfl rfl rfl id (by simp [hfirst])
  | cancel => exact hsame rfl rfl rfl rfl (fun _ => rfl) rfl
  | drop hthere => exact hsame rfl rfl rfl rfl (fun _ => rfl) (by simp [haccount.kept hthere])

/-- **Every run keeps what may be reported.** -/
theorem reports_of_run {f : Feed ε} {answers : List Answer} {moves : List Move}
    (h : (ofFeed f answers).run? moves = some s) : Reports (ofFeed f answers) s := by
  have hstart : Reports (ofFeed f answers) (ofFeed f answers) := ⟨rfl, fun r hr => nomatch hr⟩
  have hrun := run_induction
    (P := fun s => (∃ read withheld, Account (ofFeed f answers) s read withheld) ∧ Reports (ofFeed f answers) s)
    (fun hm ⟨⟨_, _, haccount⟩, hreports⟩ => ⟨haccount.move hm, hreports.move haccount hm⟩) h
    ⟨⟨[], [], account_ofFeed f answers⟩, hstart⟩
  exact hrun.2

/-! ### What a patient consumer is given -/

/-- A run of some moves and then others is one of the first and then one of the others. -/
theorem run?_append :
    s.run? (pulls ++ after) = some t ↔ ∃ u, s.run? pulls = some u ∧ u.run? after = some t := by
  simp only [run?, List.foldlM_append, Option.bind_eq_bind, Option.bind_eq_some_iff]

theorem run?_singleton : s.run? [m] = some t ↔ s.Moves m t := by
  rw [run?_cons]
  exact ⟨fun ⟨_, hm, hstays⟩ => run?_nil.1 hstays ▸ hm, fun hm => ⟨t, hm, rfl⟩⟩

/-- What is still to be done: every change is read, handed over and received, and the worker stops. -/
def left (s : Subscription ε) : Nat :=
  4 * s.upcoming.length + 2 * s.channel.length
    + match s.phase with
      | .reading => 1
      | .holding _ => 4
      | .stopped _ => 0

/-- **Every move leaves less to be done,** but for those of a consumer that has had enough. -/
theorem Moves.left_lt (h : s.Moves m t) (hcancel : m ≠ .cancel) (hdrop : m ≠ .drop) : t.left < s.left := by
  cases h with
  | parse hreading hnext =>
    simp only [left, hreading, hnext, List.length_cons]
    omega
  | hand hholding =>
    simp only [left, hholding, List.length_append, List.length_singleton]
    omega
  | giveUp hholding =>
    simp only [left, hholding]
    omega
  | fail hreading =>
    simp only [left, hreading]
    omega
  | halt hgoing =>
    simp only [left]
    split
    · omega
    · omega
    · rename_i hstopped
      simp [isStopped, hstopped] at hgoing
  | receive hthere hfirst =>
    simp only [left, hfirst, List.length_cons]
    omega
  | cancel => exact absurd rfl hcancel
  | drop => exact absurd rfl hdrop

/-- No move leaves more to be done. -/
theorem Moves.left_le (h : s.Moves m t) : t.left ≤ s.left := by
  by_cases hcancel : m = .cancel
  · subst hcancel
    cases h
    exact Nat.le_refl _
  · by_cases hdrop : m = .drop
    · subst hdrop
      cases h
      simp only [left, List.length_nil]
      omega
    · exact Nat.le_of_lt (h.left_lt hcancel hdrop)

/-- Before the first move, four moves for every change, and one to stop. -/
theorem left_ofFeed (f : Feed ε) (answers : List Answer) :
    (ofFeed f answers).left = 4 * (f.run answers).delivered.length + 1 := rfl

/-- What a consumer has received is a beginning of what the feed delivers. -/
theorem received_prefix {f : Feed ε} {answers : List Answer} (h : (ofFeed f answers).run? pulls = some s) :
    s.received <+: (f.run answers).delivered := by
  obtain ⟨read, withheld, haccount⟩ := exists_account h
  have hread : read ++ s.upcoming = (f.run answers).delivered := haccount.read_upcoming
  rw [← hread, ← haccount.places]
  exact ⟨s.channel ++ s.lost ++ withheld ++ s.upcoming, by simp⟩

/-- The consumer does nothing but ask for the next change. -/
def Patient (pulls : List Move) : Prop := .cancel ∉ pulls ∧ .drop ∉ pulls

theorem patient_cons : Patient (m :: pulls) ↔ (m ≠ .cancel ∧ m ≠ .drop) ∧ Patient pulls := by
  simp only [Patient, List.mem_cons, not_or, ne_eq, eq_comm (a := m)]
  exact and_and_and_comm

/-- **A run of a patient consumer has a bounded number of moves.** -/
theorem length_add_left_le (hpatient : Patient pulls) :
    ∀ {s : Subscription ε}, s.run? pulls = some t → pulls.length + t.left ≤ s.left := by
  induction pulls with
  | nil =>
    intro s h
    obtain rfl := run?_nil.1 h
    simp
  | cons m rest ih =>
    intro s h
    obtain ⟨⟨hcancel, hdrop⟩, hrest⟩ := patient_cons.1 hpatient
    obtain ⟨u, hm, hu⟩ := run?_cons.1 h
    have hlater := ih hrest hu
    have hnow := hm.left_lt hcancel hdrop
    rw [List.length_cons]
    omega

/-- A patient consumer has not cancelled the feed, and is still there. -/
theorem kept_of_patient (hpatient : Patient pulls) :
    ∀ {s : Subscription ε}, s.run? pulls = some t → s.cancelled = false → s.dropped = false →
      t.cancelled = false ∧ t.dropped = false := by
  induction pulls with
  | nil => exact fun h hcancelled hthere => run?_nil.1 h ▸ ⟨hcancelled, hthere⟩
  | cons m rest ih =>
    intro s h hcancelled hthere
    obtain ⟨⟨hcancel, hdrop⟩, hrest⟩ := patient_cons.1 hpatient
    obtain ⟨u, hm, hu⟩ := run?_cons.1 h
    cases hm with
    | cancel => exact absurd rfl hcancel
    | drop => exact absurd rfl hdrop
    | halt _ hgone => exact absurd (hcancelled.symm.trans hgone) Bool.false_ne_true
    | parse | hand | giveUp | fail | receive => exact ih hrest hu hcancelled hthere

/-- Nothing happens until the consumer cancels the feed or leaves. -/
def AtRest (s : Subscription ε) : Prop := ∀ m, m ≠ .cancel → m ≠ .drop → s.move? m = none

theorem atRest_iff : s.AtRest ↔ ∀ m, m ≠ .cancel → m ≠ .drop → ∀ t, ¬ s.Moves m t := by
  simp only [AtRest, Option.eq_none_iff_forall_ne_some, ne_eq, move?_eq_some_iff]

/-- The consumer is given nothing for good once the worker has stopped and the channel is empty. -/
theorem next?_eq_some_none : s.next? = some none ↔ s.channel = [] ∧ s.isStopped = true := by
  rw [next?]
  split <;> simp_all

/-- Then there is nothing more to come. -/
theorem atRest_of_next? (h : s.next? = some none) : s.AtRest := by
  obtain ⟨hempty, hstopped⟩ := next?_eq_some_none.1 h
  rw [atRest_iff]
  intro m hcancel hdrop t hm
  cases hm with
  | parse hreading | fail hreading => simp [isStopped, hreading] at hstopped
  | hand hholding | giveUp hholding => simp [isStopped, hholding] at hstopped
  | halt hgoing => exact absurd (hgoing.symm.trans hstopped) Bool.false_ne_true
  | receive _ hfirst => exact List.cons_ne_nil _ _ (hfirst.symm.trans hempty)
  | cancel => exact hcancel rfl
  | drop => exact hdrop rfl

/-- **A patient consumer that has nothing left to wait for has everything,** and the worker has stopped with the failure
of the feed if there is one. -/
theorem delivered_of_atRest {f : Feed ε} {answers : List Answer} (h : (ofFeed f answers).run? pulls = some s)
    (hpatient : Patient pulls) (hrest : s.AtRest) :
    s.received = (f.run answers).delivered
      ∧ ((s.next? = none ∧ s.result? = none ∧ ∀ e, (f.run answers).phase ≠ .failed e)
        ∨ ∃ e, s.next? = some none ∧ s.result? = some (.error e) ∧ (f.run answers).phase = .failed e) := by
  obtain ⟨read, withheld, haccount⟩ := exists_account h
  have hreports := reports_of_run h
  obtain ⟨hcancelled, hthere⟩ := kept_of_patient hpatient h rfl rfl
  have hstays := atRest_iff.1 hrest
  have hlost := haccount.kept hthere
  have hempty : s.channel = [] := by
    cases hfirst : s.channel with
    | nil => rfl
    | cons change rest => exact absurd (.receive hthere hfirst) (hstays .receive (by decide) (by decide) _)
  cases hphase : s.phase with
  | reading =>
    obtain rfl := (withholds_reading hphase).1 haccount.withholds
    have hnone : s.upcoming = [] := by
      cases hnext : s.upcoming with
      | nil => rfl
      | cons change rest => exact absurd (.parse hphase hnext) (hstays .parse (by decide) (by decide) _)
    have hunfailed : ∀ e, (f.run answers).phase ≠ .failed e := fun e he =>
      hstays .fail (by decide) (by decide) _ (.fail hphase hnone (hreports.failure_eq.trans (failure_ofFeed.2 he)))
    have hall : s.received = (f.run answers).delivered := by
      have hread : read ++ s.upcoming = (f.run answers).delivered := haccount.read_upcoming
      rw [← haccount.places, hempty, hlost, hnone] at hread
      simpa using hread
    exact ⟨hall, .inl ⟨by simp [next?, hempty, isStopped, hphase], by simp [result?, hphase], hunfailed⟩⟩
  | holding change =>
    have hfits : s.channel.length < s.room := by
      rw [hempty, room]
      exact Nat.lt_of_lt_of_le Nat.zero_lt_one (Nat.le_max_right ..)
    exact absurd (.hand hphase hthere hfits) (hstays .hand (by decide) (by decide) _)
  | stopped r =>
    rcases hreports.done r (result?_eq_some.2 hphase) with ⟨-, hgone⟩ | ⟨e, rfl, hfailure, -, hall, -⟩
    · exact absurd (hcancelled.symm.trans hgone) Bool.false_ne_true
    · rw [hempty, hlost, List.append_nil, List.append_nil] at hall
      have hover : s.next? = some none := next?_eq_some_none.2 ⟨hempty, by simp [isStopped, hphase]⟩
      exact ⟨hall, .inr ⟨e, hover, result?_eq_some.2 hphase, failure_ofFeed.1 hfailure⟩⟩

/-- Patient consumers of a feed that have nothing left to wait for cannot be told apart. -/
theorem agree_of_atRest {f : Feed ε} {answers : List Answer} (hs : (ofFeed f answers).run? pulls = some s)
    (hpatient : Patient pulls) (hsrest : s.AtRest) (ht : (ofFeed f answers).run? after = some t)
    (hpatient' : Patient after) (htrest : t.AtRest) :
    s.received = t.received ∧ s.next? = t.next? ∧ s.result? = t.result? := by
  obtain ⟨hall, hend⟩ := delivered_of_atRest hs hpatient hsrest
  obtain ⟨hall', hend'⟩ := delivered_of_atRest ht hpatient' htrest
  refine ⟨hall.trans hall'.symm, ?_⟩
  rcases hend, hend' with ⟨⟨hnext, hresult, hunfailed⟩ | ⟨e, hnext, hresult, hfailed⟩,
    ⟨hnext', hresult', hunfailed'⟩ | ⟨e', hnext', hresult', hfailed'⟩⟩
  · exact ⟨hnext.trans hnext'.symm, hresult.trans hresult'.symm⟩
  · exact absurd hfailed' (hunfailed e')
  · exact absurd hfailed (hunfailed' e)
  · obtain rfl : e = e' := WorkerPhase.failed.inj (hfailed.symm.trans hfailed')
    exact ⟨hnext.trans hnext'.symm, hresult.trans hresult'.symm⟩

/-- A worker that has stopped has what it reports. -/
theorem exists_result (h : s.isStopped = true) : ∃ r, s.result? = some r := by
  rw [isStopped] at h
  split at h
  · rename_i r hstopped
    exact ⟨r, result?_eq_some.2 hstopped⟩
  · exact absurd h Bool.false_ne_true

/-- What a worker reports, it reports whatever happens. -/
theorem result?_of_run {r : Outcome Unit} (h : s.run? after = some t) (hr : s.result? = some r) :
    t.result? = some r := by
  refine run_induction (P := fun s => s.result? = some r) (fun {s m t} hm hs => ?_) h hr
  have hphase := result?_eq_some.1 hs
  cases hm with
  | parse hreading | fail hreading => exact nomatch hphase.symm.trans hreading
  | hand hholding | giveUp hholding => exact nomatch hphase.symm.trans hholding
  | halt hgoing => simp [isStopped, hphase] at hgoing
  | receive | cancel | drop => exact hs

/-- **A worker that stops before the consumer has had enough reports the failure of the feed,** whatever the consumer
does after that. -/
theorem reports_failure {f : Feed ε} {answers : List Answer} (h : (ofFeed f answers).run? pulls = some s)
    (hpatient : Patient pulls) (hstopped : s.isStopped = true) (hafter : s.run? after = some t) :
    ∃ e, t.result? = some (.error e) ∧ (f.run answers).phase = .failed e := by
  obtain ⟨hcancelled, -⟩ := kept_of_patient hpatient h rfl rfl
  obtain ⟨r, hr⟩ := exists_result hstopped
  rcases (reports_of_run h).done r hr with ⟨-, hgone⟩ | ⟨e, rfl, hfailure, -⟩
  · exact absurd (hcancelled.symm.trans hgone) Bool.false_ne_true
  · exact ⟨e, result?_of_run hafter hr, failure_ofFeed.1 hfailure⟩

/-- **The failure of a feed is told:** a patient consumer comes to where there is nothing left to wait for, and by then it
was given all that was delivered and the worker has reported the failure, for good. -/
theorem told_of_failed {f : Feed ε} {answers : List Answer} {e : ClientError} (hfailed : (f.run answers).phase = .failed e)
    (h : (ofFeed f answers).run? pulls = some s) (hpatient : Patient pulls) :
    pulls.length ≤ 4 * (f.run answers).delivered.length + 1
      ∧ (s.AtRest → s.received = (f.run answers).delivered ∧ s.next? = some none
        ∧ ∀ after t, s.run? after = some t → t.result? = some (.error e)) := by
  have hmoves := length_add_left_le hpatient h
  rw [left_ofFeed] at hmoves
  refine ⟨Nat.le_of_add_right_le hmoves, fun hrest => ?_⟩
  obtain ⟨hall, ⟨-, -, hunfailed⟩ | ⟨e', hnext, hresult, hfailed'⟩⟩ := delivered_of_atRest h hpatient hrest
  · exact absurd hfailed (hunfailed e)
  · obtain rfl : e = e' := WorkerPhase.failed.inj (hfailed.symm.trans hfailed')
    exact ⟨hall, hnext, fun after t hafter => result?_of_run hafter hresult⟩

end Subscription
end DocClient
