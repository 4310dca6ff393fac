/-
# Calling a handler agrees with asking for changes

The loop that calls a handler is a consumer of a subscription, so what it does is told by what a consumer may do that
asks for one change after the other. `HandlerLoop.Steps` says all that a move of the loop does:

| move of the loop | when | the consumer beside it |
| --- | --- | --- |
| the worker moves, or the feed is cancelled | any time | sees the same |
| a call starts | the loop is free, the feed not cancelled | is given the change |
| the loop ends | it is free, the feed was cancelled | has had enough |
| the loop ends, and cancels the feed | it is free, the worker has stopped and nothing is left | is given nothing |
| a call returns or breaks down | a call is under way | does nothing |

Every move keeps the consumer beside the loop (`Beside.step`), so every run does (`exists_beside`); the other way round
a patient consumer is followed by a loop that takes each change when it does (`run_flatMap_ofPull`). A handler is told
what it was called for before, so that any of its calls may be the ones that break down; which they are makes no
difference to the loop (`Alike.step`).
-/

import DocClient.Feed.Handler
import DocClient.Proofs.Feed.Pulling

namespace DocClient
namespace HandlerLoop

variable {ε : Type} {f : Feed ε} {answers : List Answer} {handler : Handler ε} {l k : HandlerLoop ε} {m : LoopMove}
  {moves : List LoopMove}

/-- **What the moves of a loop do.** -/
inductive Steps (handler : Handler ε) (l : HandlerLoop ε) : LoopMove → HandlerLoop ε → Prop
  | feed {m : Move} {s : Subscription ε} (stays : m ≠ .receive) (keeps : m ≠ .drop)
    (moves : l.subscription.Moves m s) : Steps handler l (.feed m) { l with subscription := s }
  | start {change : Change ε} {rest : List (Change ε)} (free : l.calling = none) (going : l.ended = false)
    (wanted : l.subscription.cancelled = false) (there : l.subscription.dropped = false)
    (first : l.subscription.channel = change :: rest) :
    Steps handler l .take
      { l with
        subscription :=
          { l.subscription with channel := rest, received := l.subscription.received ++ [change] }
        calling := some change }
  | observe (free : l.calling = none) (going : l.ended = false) (cancelled : l.subscription.cancelled = true) :
    Steps handler l .take { l with ended := true }
  | close (free : l.calling = none) (going : l.ended = false) (wanted : l.subscription.cancelled = false)
    (empty : l.subscription.channel = []) (stopped : l.subscription.isStopped = true) :
    Steps handler l .take { l with ended := true, subscription := { l.subscription with cancelled := true } }
  | complete {change : Change ε} (calling : l.calling = some change) :
    Steps handler l .complete
      { l with calling := none, calls := l.calls ++ [(change, handler (l.calls.map Prod.fst) change)] }

/-- A move that can be made does what moves do, and the moves that do so can be made. -/
theorem move?_eq_some_iff : l.move? handler m = some k ↔ l.Steps handler m k := by
  constructor
  · intro h
    cases m with
    | feed m =>
      have hours : m ≠ .receive ∧ m ≠ .drop := by
        constructor <;> rintro rfl <;> exact nomatch h
      have hmap : (l.subscription.move? m).map (fun s => { l with subscription := s }) = some k := by
        cases m <;> first | exact h | exact nomatch h
      obtain ⟨s, hs, rfl⟩ := Option.map_eq_some_iff.1 hmap
      exact .feed hours.1 hours.2 (Subscription.move?_eq_some_iff.1 hs)
    | take =>
      simp only [move?] at h
      split at h
      · exact nomatch h
      · rename_i hfree
        split at h
        · exact nomatch h
        · rename_i hgoing
          split at h
          · rename_i hcancelled
            exact Option.some.inj h ▸ .observe hfree (by simpa using hgoing) hcancelled
          · rename_i hwanted
            split at h
            · rename_i hfirst
              obtain ⟨s, hs, rfl⟩ := Option.map_eq_some_iff.1 h
              cases Subscription.move?_eq_some_iff.1 hs with
              | receive hthere hfirst' =>
                obtain ⟨rfl, rfl⟩ := List.cons.inj (hfirst.symm.trans hfirst')
                exact .start hfree (by simpa using hgoing) (by simpa using hwanted) hthere hfirst
            · rename_i hempty
              split at h
              · rename_i hstopped
                exact Option.some.inj h ▸
                  .close hfree (by simpa using hgoing) (by simpa using hwanted) hempty hstopped
              · exact nomatch h
    | complete =>
      simp only [move?] at h
      split at h
      · rename_i hcalling
        exact Option.some.inj h ▸ .complete hcalling
      · exact nomatch h
  · intro h
    cases h with
    | @feed m s hreceive hdrop hm =>
      have hs := Subscription.move?_eq_some_iff.2 hm
      cases m <;> first | exact absurd rfl hreceive | exact absurd rfl hdrop | simp [move?, hs]
    | start hfree hgoing hwanted hthere hfirst =>
      simp [move?, hfree, hgoing, hwanted, hfirst, Subscription.move?, hthere]
    | observe hfree hgoing hcancelled => simp [move?, hfree, hgoing, hcancelled]
    | close hfree hgoing hwanted hempty hstopped => simp [move?, hfree, hgoing, hwanted, hempty, hstopped]
    | complete hcalling => simp [move?, hcalling]

/-- A run is its first move and the run after it. -/
theorem run?_cons :
    l.run? handler (m :: moves) = some k ↔ ∃ l', l.Steps handler m l' ∧ l'.run? handler moves = some k := by
  simp only [run?, List.foldlM_cons, Option.bind_eq_bind, Option.bind_eq_some_iff, move?_eq_some_iff]

/-- A run of no moves stays where it is. -/
theorem run?_nil : l.run? handler [] = some k ↔ l = k := by
  simp [run?]

/-- A run of some moves and then others is one of the first and then one of the others. -/
theorem run?_append {after : List LoopMove} : l.run? handler (moves ++ after) = some k
    ↔ ∃ l', l.run? handler moves = some l' ∧ l'.run? handler after = some k := by
  simp only [run?, List.foldlM_append, Option.bind_eq_bind, Option.bind_eq_some_iff]

/-- What every move keeps, every run keeps. -/
theorem run_induction {P : HandlerLoop ε → Prop} (hstep : ∀ {l m k}, Steps handler l m k → P l → P k)
    {moves : List LoopMove} : ∀ {l k : HandlerLoop ε}, l.run? handler moves = some k → P l → P k := by
  induction moves with
  | nil => exact fun h hl => run?_nil.1 h ▸ hl
  | cons m rest ih =>
    intro l k h hl
    obtain ⟨l', hm, hrest⟩ := run?_cons.1 h
    exact ih hrest (hstep hm hl)

/-- The loop before the first change of a feed. -/
def ofFeed (f : Feed ε) (answers : List Answer) : HandlerLoop ε := { subscription := .ofFeed f answers }

/-- The changes that the handler was called for, the call under way included. -/
def started (l : HandlerLoop ε) : List (Change ε) := l.calls.map Prod.fst ++ l.calling.toList

/-- The calls of a handler for some changes, one after the other, after it was called for some others. -/
def callsFor (handler : Handler ε) : List (Change ε) → List (Change ε) → List (Change ε × Bool)
  | _, [] => []
  | earlier, change :: rest => (change, handler earlier change) :: callsFor handler (earlier ++ [change]) rest

theorem callsFor_concat (change : Change ε) (changes : List (Change ε)) : ∀ earlier,
    callsFor handler earlier (changes ++ [change])
      = callsFor handler earlier changes ++ [(change, handler (earlier ++ changes) change)] := by
  induction changes with
  | nil => simp [callsFor]
  | cons c rest ih => simp [callsFor, ih]

theorem map_fst_callsFor (changes : List (Change ε)) : ∀ earlier,
    (callsFor handler earlier changes).map Prod.fst = changes := by
  induction changes with
  | nil => exact fun _ => rfl
  | cons c rest ih => simp [callsFor, ih]

/-- **A loop is in order**: it calls the handler for every change that it has received, once and in turn. -/
structure InOrder (handler : Handler ε) (l : HandlerLoop ε) : Prop where
  started_eq : l.started = l.subscription.received
  calls_eq : l.calls = callsFor handler [] (l.calls.map Prod.fst)
  free : l.ended = true → l.calling = none
  there : l.subscription.dropped = false

theorem inOrder_ofFeed (handler : Handler ε) (f : Feed ε) (answers : List Answer) :
    InOrder handler (ofFeed f answers) where
  started_eq := rfl
  calls_eq := rfl
  free _ := rfl
  there := rfl

/-- Every move keeps the order. -/
theorem InOrder.step (h : InOrder handler l) (hm : l.Steps handler m k) : InOrder handler k := by
  cases hm with
  | feed hreceive hdrop hm =>
    have hsame : ∀ {s : Subscription ε}, s.received = l.subscription.received →
        s.dropped = l.subscription.dropped → InOrder handler { l with subscription := s } :=
      fun hreceived hdropped => ⟨h.started_eq.trans hreceived.symm, h.calls_eq, h.free, hdropped.trans h.there⟩
    cases hm with
    | receive => exact absurd rfl hreceive
    | drop => exact absurd rfl hdrop
    | parse | hand | giveUp | fail | halt | cancel => exact hsame rfl rfl
  | start hfree hgoing _ hthere _ =>
    refine ⟨?_, h.calls_eq, fun hended => absurd (hgoing.symm.trans hended) Bool.false_ne_true, hthere⟩
    have hstarted := h.started_eq
    simp only [started, hfree, Option.toList_none, List.append_nil] at hstarted
    simp only [started, hstarted, Option.toList_some]
  | observe hfree => exact ⟨h.started_eq, h.calls_eq, fun _ => hfree, h.there⟩
  | close hfree => exact ⟨h.started_eq, h.calls_eq, fun _ => hfree, h.there⟩
  | @complete change hcalling =>
    refine ⟨?_, ?_, fun _ => rfl, h.there⟩
    · have hstarted := h.started_eq
      simp only [started, hcalling, Option.toList_some] at hstarted
      simp [started, hstarted]
    · simp only [List.map_append, List.map_cons, List.map_nil]
      rw [callsFor_concat, ← h.calls_eq]
      rfl

/-- Every run keeps the order. -/
theorem inOrder_of_run (h : (ofFeed f answers).run? handler moves = some l) : InOrder handler l :=
  run_induction (fun hm hl => hl.step hm) h (inOrder_ofFeed handler f answers)

/-- A loop without a call under way has called the handler for what it has received. -/
theorem InOrder.calls_of_free (h : InOrder handler l) (hfree : l.calling = none) :
    l.calls = callsFor handler [] l.subscription.received := by
  have hstarted := h.started_eq
  rw [started, hfree, Option.toList_none, List.append_nil] at hstarted
  rw [← hstarted]
  exact h.calls_eq

/-- A call under way goes on until it is complete, and nothing starts meanwhile. -/
theorem Steps.calling {change : Change ε} (h : l.Steps handler m k) (hcalling : l.calling = some change) :
    (k.calling = some change ∧ k.calls = l.calls)
      ∨ (k.calling = none ∧ k.calls = l.calls ++ [(change, handler (l.calls.map Prod.fst) change)]) := by
  cases h with
  | feed => exact .inl ⟨hcalling, rfl⟩
  | start hfree | observe hfree | close hfree => exact nomatch hfree.symm.trans hcalling
  | complete hcalling' =>
    obtain rfl := Option.some.inj (hcalling.symm.trans hcalling')
    exact .inr ⟨rfl, rfl⟩

/-- **A consumer stands beside a loop**: they have the same subscription, but that a loop that ended because there was
nothing left has cancelled the feed as well. -/
inductive Beside (l : HandlerLoop ε) : Subscription ε → Prop
  | same (observed : l.ended = true → l.subscription.cancelled = true) : Beside l l.subscription
  | closed {s : Subscription ε} (given : s.next? = some none) (ended : l.ended = true)
    (eq : l.subscription = { s with cancelled := true }) : Beside l s

theorem Beside.received_eq {s : Subscription ε} (h : l.Beside s) : s.received = l.subscription.received := by
  cases h with
  | same => rfl
  | closed _ _ heq => rw [heq]

/-- The worker has stopped for both or for none. -/
theorem Beside.isStopped_eq {s : Subscription ε} (h : l.Beside s) : l.subscription.isStopped = s.isStopped := by
  cases h with
  | same => rfl
  | closed _ _ heq =>
    rw [heq]
    rfl

/-- What the worker reports is the same for both. -/
theorem Beside.result?_eq {s : Subscription ε} (h : l.Beside s) : l.subscription.result? = s.result? := by
  cases h with
  | same => rfl
  | closed _ _ heq =>
    rw [heq]
    rfl

/-- **Whatever move the loop makes, the consumer stays beside it with one move at most.** -/
theorem Beside.step {s : Subscription ε} (h : l.Beside s) (hm : l.Steps handler m k) :
    ∃ pull t, s.run? pull = some t ∧ k.Beside t ∧ .drop ∉ pull ∧ (.cancel ∈ pull → m = .feed .cancel) := by
  cases h with
  | same hobserved =>
    cases hm with
    | @feed m t hreceive hdrop hm =>
      refine ⟨[m], t, Subscription.run?_singleton.2 hm, .same fun hended => ?_, ?_, ?_⟩
      · cases hm with
        | parse | hand | giveUp | fail | halt | receive => exact hobserved hended
        | cancel | drop => rfl
      · simpa using hdrop.symm
      · exact fun hmem => congrArg LoopMove.feed (List.mem_singleton.1 hmem).symm
    | start hfree hgoing hwanted hthere hfirst =>
      have hreceives : l.subscription.run? [.receive] = some _ :=
        Subscription.run?_singleton.2 (.receive hthere hfirst)
      refine ⟨[.receive], _, hreceives, .same fun hended => ?_, by simp, by simp⟩
      exact absurd (hgoing.symm.trans hended) Bool.false_ne_true
    | observe _ _ hcancelled => exact ⟨[], _, rfl, .same fun _ => hcancelled, by simp, by simp⟩
    | close _ _ _ hempty hstopped =>
      exact ⟨[], _, rfl, .closed (Subscription.next?_eq_some_none.2 ⟨hempty, hstopped⟩) rfl rfl, by simp, by simp⟩
    | complete => exact ⟨[], _, rfl, .same hobserved, by simp, by simp⟩
  | closed hover hended heq =>
    refine ⟨[], s, rfl, ?_, by simp, by simp⟩
    have hrest := Subscription.atRest_iff.1 (Subscription.atRest_of_next? (s := { s with cancelled := true }) hover)
    cases hm with
    | @feed m t hreceive hdrop hm =>
      rw [heq] at hm
      by_cases hcancel : m = .cancel
      · subst hcancel
        cases hm
        exact .closed hover hended rfl
      · exact absurd hm (hrest m hcancel hdrop t)
    | start _ hgoing | observe _ hgoing | close _ hgoing =>
      exact absurd (hgoing.symm.trans hended) Bool.false_ne_true
    | complete => exact .closed hover hended heq

/-- **A consumer can stand beside a loop whatever its moves are,** and cancels the feed only if that is one of them. -/
theorem exists_beside : ∀ {l : HandlerLoop ε} {s : Subscription ε}, l.run? handler moves = some k → l.Beside s →
    ∃ pulls t, s.run? pulls = some t ∧ k.Beside t ∧ .drop ∉ pulls ∧ (.cancel ∈ pulls → .feed .cancel ∈ moves) := by
  induction moves with
  | nil => exact fun h hl => ⟨[], _, rfl, run?_nil.1 h ▸ hl, by simp, by simp⟩
  | cons m rest ih =>
    intro l s h hl
    obtain ⟨l', hm, hrest⟩ := run?_cons.1 h
    obtain ⟨pull, t, ht, hbeside, hdrop, hcancel⟩ := hl.step hm
    obtain ⟨pulls, u, hu, hbeside', hdrop', hcancel'⟩ := ih hrest hbeside
    refine ⟨pull ++ pulls, u, Subscription.run?_append.2 ⟨t, ht, hu⟩, hbeside', ?_, fun hmem => ?_⟩
    · simp [hdrop, hdrop']
    · rcases List.mem_append.1 hmem with hmem | hmem
      · exact hcancel hmem ▸ List.mem_cons_self
      · exact List.mem_cons_of_mem _ (hcancel' hmem)

/-- A patient consumer stands beside a loop whose feed is not cancelled. -/
theorem exists_patient (h : (ofFeed f answers).run? handler moves = some l) (hkept : .feed .cancel ∉ moves) :
    ∃ pulls s, (Subscription.ofFeed f answers).run? pulls = some s ∧ Subscription.Patient pulls ∧ l.Beside s := by
  obtain ⟨pulls, s, hs, hbeside, hdrop, hcancel⟩ := exists_beside h (.same nofun)
  exact ⟨pulls, s, hs, ⟨fun hmem => hkept (hcancel hmem), hdrop⟩, hbeside⟩

/-- The moves of a loop in place of a move of a consumer: a change that is given to it is handled at once. -/
def ofPull : Move → List LoopMove
  | .receive => [.take, .complete]
  | m => [.feed m]

/-- **A loop can follow a patient consumer.** -/
theorem run_flatMap_ofPull (handler : Handler ε) {pulls : List Move} (hpatient : Subscription.Patient pulls) :
    ∀ {l : HandlerLoop ε} {s : Subscription ε}, l.subscription.run? pulls = some s → l.calling = none →
      l.ended = false → l.subscription.cancelled = false →
      ∃ k, l.run? handler (pulls.flatMap ofPull) = some k ∧ k.subscription = s ∧ k.calling = none := by
  induction pulls with
  | nil => exact fun {l s} h hfree _ _ => ⟨l, rfl, Subscription.run?_nil.1 h, hfree⟩
  | cons m rest ih =>
    intro l s h hfree hgoing hwanted
    obtain ⟨⟨hcancel, hdrop⟩, hrest⟩ := Subscription.patient_cons.1 hpatient
    obtain ⟨t, hm, ht⟩ := Subscription.run?_cons.1 h
    have hsame : ofPull m = [.feed m] → m ≠ .receive → t.cancelled = false →
        ∃ k, l.run? handler ((m :: rest).flatMap ofPull) = some k ∧ k.subscription = s ∧ k.calling = none := by
      intro hpull hreceive hcancelled
      obtain ⟨k, hk, hend⟩ := ih hrest (l := { l with subscription := t }) ht hfree hgoing hcancelled
      rw [List.flatMap_cons, hpull]
      exact ⟨k, run?_cons.2 ⟨_, .feed hreceive hdrop hm, hk⟩, hend⟩
    cases hm with
    | cancel => exact absurd rfl hcancel
    | drop => exact absurd rfl hdrop
    | parse | hand | giveUp | fail | halt => exact hsame rfl nofun hwanted
    | @receive change later hthere hfirst =>
      have hstart : l.Steps handler .take _ := .start hfree hgoing hwanted hthere hfirst
      obtain ⟨k, hk, hend⟩ := ih hrest (l := { l with
        subscription := { l.subscription with channel := later, received := l.subscription.received ++ [change] }
        calling := none
        calls := l.calls ++ [(change, handler (l.calls.map Prod.fst) change)] }) ht rfl hgoing hwanted
      exact ⟨k, run?_cons.2 ⟨_, hstart, run?_cons.2 ⟨_, .complete rfl, hk⟩⟩, hend⟩

/-- **Whatever a patient consumer has received, a handler can have been called for,** the feed being the same. -/
theorem exists_run_of_pull (handler : Handler ε) {pulls : List Move} {s : Subscription ε}
    (hs : (Subscription.ofFeed f answers).run? pulls = some s) (hpatient : Subscription.Patient pulls) :
    ∃ moves l, (ofFeed f answers).run? handler moves = some l ∧ .feed .cancel ∉ moves ∧ l.subscription = s
      ∧ l.calling = none ∧ l.calls = callsFor handler [] s.received := by
  obtain ⟨l, hl, rfl, hfree⟩ := run_flatMap_ofPull handler hpatient (l := ofFeed f answers) hs rfl rfl rfl
  refine ⟨pulls.flatMap ofPull, l, hl, ?_, rfl, hfree, (inOrder_of_run hl).calls_of_free hfree⟩
  rw [List.mem_flatMap]
  rintro ⟨m, hmem, hcancel⟩
  cases m with
  | cancel => exact hpatient.1 hmem
  | parse | hand | fail | halt | receive | drop => simp [ofPull] at hcancel

/-- Two loops are alike but for the calls that broke down. -/
structure Alike (l k : HandlerLoop ε) : Prop where
  subscription_eq : k.subscription = l.subscription
  calling_eq : k.calling = l.calling
  ended_eq : k.ended = l.ended
  called_eq : k.calls.map Prod.fst = l.calls.map Prod.fst

theorem Alike.started_eq (h : l.Alike k) : k.started = l.started := by
  rw [started, h.called_eq, h.calling_eq, started]

/-- **Which calls break down makes no difference** to the moves of a loop. -/
theorem Alike.step {l' : HandlerLoop ε} (handler' : Handler ε) (h : l.Alike k) (hm : l.Steps handler m l') :
    ∃ k', k.Steps handler' m k' ∧ l'.Alike k' := by
  obtain ⟨s, calling, calls, ended⟩ := l
  obtain ⟨s', calling', calls', ended'⟩ := k
  obtain ⟨rfl, rfl, rfl, hcalled⟩ := h
  cases hm with
  | feed hreceive hdrop hm => exact ⟨_, .feed hreceive hdrop hm, rfl, rfl, rfl, hcalled⟩
  | start hfree hgoing hwanted hthere hfirst =>
    exact ⟨_, .start hfree hgoing hwanted hthere hfirst, rfl, rfl, rfl, hcalled⟩
  | observe hfree hgoing hcancelled => exact ⟨_, .observe hfree hgoing hcancelled, rfl, rfl, rfl, hcalled⟩
  | close hfree hgoing hwanted hempty hstopped =>
    exact ⟨_, .close hfree hgoing hwanted hempty hstopped, rfl, rfl, rfl, hcalled⟩
  | complete hcalling =>
    refine ⟨_, .complete hcalling, rfl, rfl, rfl, ?_⟩
    have hcalled' : calls'.map Prod.fst = calls.map Prod.fst := hcalled
    simp only [List.map_append, hcalled', List.map_cons, List.map_nil]

/-- Which calls break down makes no difference to a run. -/
theorem Alike.run (handler' : Handler ε) : ∀ {l k l' : HandlerLoop ε}, l.Alike k → l.run? handler moves = some l' →
    ∃ k', k.run? handler' moves = some k' ∧ l'.Alike k' := by
  induction moves with
  | nil => exact fun {_ k _} halike h => ⟨k, rfl, run?_nil.1 h ▸ halike⟩
  | cons m rest ih =>
    intro l k l' halike h
    obtain ⟨u, hm, hrest⟩ := run?_cons.1 h
    obtain ⟨v, hm', halike'⟩ := halike.step handler' hm
    obtain ⟨k', hrest', hend⟩ := ih halike' hrest
    exact ⟨k', run?_cons.2 ⟨v, hm', hrest'⟩, hend⟩

/-- What is still to be done: what the subscription has to do, the call under way, and the end. -/
def left (l : HandlerLoop ε) : Nat :=
  l.subscription.left + l.calling.toList.length + if l.ended then 0 else 1

/-- **Every move leaves less to be done,** but for cancelling the feed. -/
theorem Steps.left_lt (h : l.Steps handler m k) (hcancel : m ≠ .feed .cancel) : k.left < l.left := by
  cases h with
  | feed hreceive hdrop hm =>
    have hless := hm.left_lt (fun heq => hcancel (congrArg LoopMove.feed heq)) hdrop
    simp only [left]
    omega
  | start hfree hgoing hwanted hthere hfirst =>
    have hless := (Subscription.Moves.receive hthere hfirst).left_lt nofun nofun
    simp only [Subscription.left, hfirst, List.length_cons] at hless
    simp only [left, Subscription.left, hfree, hfirst, Option.toList_some, Option.toList_none, List.length_cons,
      List.length_nil]
    omega
  | observe hfree hgoing => simp [left, hgoing]
  | close hfree hgoing => simp [left, hgoing, Subscription.left]
  | complete hcalling =>
    simp only [left, hcalling, Option.toList_some, Option.toList_none, List.length_cons, List.length_nil]
    omega

/-- **A loop makes a bounded number of moves,** but for cancelling the feed. -/
theorem countP_add_left_le : ∀ {l : HandlerLoop ε}, l.run? handler moves = some k →
    moves.countP (· ≠ .feed .cancel) + k.left ≤ l.left := by
  induction moves with
  | nil =>
    intro l h
    obtain rfl := run?_nil.1 h
    simp
  | cons m rest ih =>
    intro l h
    obtain ⟨u, hm, hrest⟩ := run?_cons.1 h
    have hlater := ih hrest
    by_cases hcancel : m = .feed .cancel
    · subst hcancel
      rw [List.countP_cons_of_neg (by simp)]
      cases hm with
      | feed _ _ hm =>
        have hnow := hm.left_le
        simp only [left] at hlater ⊢
        omega
    · have hnow := hm.left_lt hcancel
      rw [List.countP_cons_of_pos (by simpa using hcancel)]
      omega

/-- Nothing happens until the feed is cancelled. -/
def AtRest (handler : Handler ε) (l : HandlerLoop ε) : Prop := ∀ m, m ≠ .feed .cancel → l.move? handler m = none

theorem atRest_iff : l.AtRest handler ↔ ∀ m, m ≠ .feed .cancel → ∀ k, ¬ l.Steps handler m k := by
  simp only [AtRest, Option.eq_none_iff_forall_ne_some, ne_eq, move?_eq_some_iff]

/-- **A loop comes to rest,** without the feed being cancelled. The induction is on what is left to be done. -/
theorem exists_atRest (handler : Handler ε) (l : HandlerLoop ε) :
    ∃ after k, .feed .cancel ∉ after ∧ l.run? handler after = some k ∧ k.AtRest handler := by
  induction hleft : l.left using Nat.strongRecOn generalizing l with
  | ind n ih =>
    by_cases hrest : l.AtRest handler
    · exact ⟨[], l, by simp, rfl, hrest⟩
    · obtain ⟨m, hcancel, u, hm⟩ : ∃ m, m ≠ .feed .cancel ∧ ∃ u, l.Steps handler m u := by
        simpa [atRest_iff] using hrest
      obtain ⟨after, k, hkept, hrun, hend⟩ := ih u.left (hleft ▸ hm.left_lt hcancel) u rfl
      refine ⟨m :: after, k, ?_, run?_cons.2 ⟨u, hm, hrun⟩, hend⟩
      simp [hkept, hcancel.symm]

/-- A loop at rest has no call under way. -/
theorem AtRest.free (h : l.AtRest handler) : l.calling = none := by
  cases hcalling : l.calling with
  | none => rfl
  | some change => exact absurd (.complete hcalling) (atRest_iff.1 h .complete nofun _)

/-- A loop at rest has ended if its feed was cancelled. -/
theorem AtRest.ended (h : l.AtRest handler) (hcancelled : l.subscription.cancelled = true) : l.ended = true := by
  cases hended : l.ended with
  | true => rfl
  | false => exact absurd (.observe h.free hended hcancelled) (atRest_iff.1 h .take nofun _)

/-- **A loop at rest whose feed is not cancelled stands beside a patient consumer at rest,** and has ended just if the
consumer would be given nothing. -/
theorem AtRest.exists_patient (hrest : l.AtRest handler) (h : (ofFeed f answers).run? handler moves = some l)
    (hkept : .feed .cancel ∉ moves) :
    ∃ pulls s, (Subscription.ofFeed f answers).run? pulls = some s ∧ Subscription.Patient pulls ∧ l.Beside s
      ∧ s.AtRest ∧ (l.ended = true ↔ s.next? = some none) := by
  obtain ⟨pulls, s, hs, hpatient, hbeside⟩ := HandlerLoop.exists_patient h hkept
  refine ⟨pulls, s, hs, hpatient, hbeside, ?_⟩
  obtain ⟨hwanted, hthere⟩ := Subscription.kept_of_patient hpatient hs rfl rfl
  cases hbeside with
  | closed hover hended => exact ⟨Subscription.atRest_of_next? hover, iff_of_true hended hover⟩
  | same hobserved =>
    have hgoing : l.ended = false := Bool.eq_false_iff.2 fun hended =>
      Bool.false_ne_true (hwanted.symm.trans (hobserved hended))
    have hstays := atRest_iff.1 hrest
    have hempty : l.subscription.channel = [] := by
      cases hfirst : l.subscription.channel with
      | nil => rfl
      | cons change rest =>
        exact absurd (.start hrest.free hgoing hwanted hthere hfirst) (hstays .take nofun _)
    have hover : l.subscription.next? ≠ some none := fun hover =>
      hstays .take nofun _ (.close hrest.free hgoing hwanted hempty (Subscription.next?_eq_some_none.1 hover).2)
    refine ⟨Subscription.atRest_iff.2 fun m hcancel hdrop t hm => ?_, iff_of_false (by simp [hgoing]) hover⟩
    by_cases hreceive : m = .receive
    · subst hreceive
      cases hm with
      | receive _ hfirst => exact nomatch hempty.symm.trans hfirst
    · exact hstays (.feed m) (fun heq => hcancel (LoopMove.feed.inj heq)) _ (.feed hreceive hdrop hm)

/-- **A loop at rest whose feed is not cancelled has done what a patient consumer at rest has,** and both report the
same. -/
theorem AtRest.agree {pulls : List Move} {s : Subscription ε} (hrest : l.AtRest handler)
    (h : (ofFeed f answers).run? handler moves = some l) (hkept : .feed .cancel ∉ moves) (hsrest : s.AtRest)
    (hs : (Subscription.ofFeed f answers).run? pulls = some s) (hpatient : Subscription.Patient pulls) :
    l.calls = callsFor handler [] s.received ∧ (l.ended = true ↔ s.next? = some none) ∧ l.result? = s.result? := by
  obtain ⟨pulls', t, ht, hpatient', hbeside, htrest, hended⟩ := hrest.exists_patient h hkept
  obtain ⟨hreceived, hnext, hresult⟩ := Subscription.agree_of_atRest ht hpatient' htrest hs hpatient hsrest
  refine ⟨?_, hnext ▸ hended, ?_⟩
  · rw [← hreceived, hbeside.received_eq]
    exact (inOrder_of_run h).calls_of_free hrest.free
  · rw [← hresult, result?, hbeside.result?_eq]
    split
    · rfl
    · rename_i hgoing
      rcases (Subscription.delivered_of_atRest ht hpatient' htrest).2 with ⟨-, hnone, -⟩ | ⟨e, hgiven, -⟩
      · exact hnone.symm
      · exact absurd (hended.2 hgiven) hgoing

/-- Once the feed is cancelled no call starts. -/
theorem Steps.started_eq (h : l.Steps handler m k) (hcancelled : l.subscription.cancelled = true) :
    k.started = l.started ∧ k.subscription.cancelled = true := by
  cases h with
  | feed hreceive hdrop hm =>
    refine ⟨rfl, ?_⟩
    cases hm with
    | parse | hand | giveUp | fail | halt | receive => exact hcancelled
    | cancel | drop => rfl
  | start _ _ hwanted | close _ _ hwanted => exact absurd (hwanted.symm.trans hcancelled) Bool.false_ne_true
  | observe => exact ⟨rfl, hcancelled⟩
  | complete hcalling => exact ⟨by simp [started, hcalling], hcancelled⟩

/-- However long the loop goes on after that, no call starts. -/
theorem started_eq_of_run {after : List LoopMove} (h : l.run? handler after = some k)
    (hcancelled : l.subscription.cancelled = true) : k.started = l.started ∧ k.subscription.cancelled = true :=
  run_induction (P := fun k => k.started = l.started ∧ k.subscription.cancelled = true)
    (fun hm ⟨hstarted, hgone⟩ => (hm.started_eq hgone).imp_left fun hsame => hsame.trans hstarted) h ⟨rfl, hcancelled⟩

/-- **A loop whose worker stopped before the feed was cancelled reports the failure of the feed,** whatever happens
after that. -/
theorem reports_failure {after : List LoopMove} (h : (ofFeed f answers).run? handler moves = some l)
    (hkept : .feed .cancel ∉ moves) (hstopped : l.subscription.isStopped = true)
    (hafter : l.run? handler after = some k) (hended : k.ended = true) :
    ∃ e, k.result? = some (.error e) ∧ (f.run answers).phase = .failed e := by
  obtain ⟨pulls, s, hs, hpatient, hbeside⟩ := exists_patient h hkept
  obtain ⟨more, t, ht, hbeside', -⟩ := exists_beside hafter hbeside
  obtain ⟨e, hresult, hfailed⟩ :=
    Subscription.reports_failure hs hpatient (hbeside.isStopped_eq ▸ hstopped) ht
  refine ⟨e, ?_, hfailed⟩
  rw [result?, if_pos hended, hbeside'.result?_eq, hresult]

/-- **Calling a handler agrees with asking for changes,** for a feed, what its connections get, and a handler. -/
structure AgreesWithPull (f : Feed ε) (answers : List Answer) (handler : Handler ε) : Prop where
  /-- Whatever the moves of the loop are, a consumer stands beside it that has received what the handler was called for,
  and cancels the feed only if that is one of them. -/
  pulled : ∀ moves l, (ofFeed f answers).run? handler moves = some l →
    ∃ pulls s, (Subscription.ofFeed f answers).run? pulls = some s ∧ l.Beside s ∧ s.received = l.started
      ∧ .drop ∉ pulls ∧ (.cancel ∈ pulls → .feed .cancel ∈ moves)
  /-- Whatever a patient consumer has received, a handler can have been called for. -/
  pushed : ∀ pulls s, (Subscription.ofFeed f answers).run? pulls = some s → Subscription.Patient pulls →
    ∃ moves l, (ofFeed f answers).run? handler moves = some l ∧ .feed .cancel ∉ moves ∧ l.subscription = s
      ∧ l.calling = none ∧ l.calls = callsFor handler [] s.received
  /-- The handler is called for the changes of the feed in order, for each once and for one at a time. -/
  ordered : ∀ moves l, (ofFeed f answers).run? handler moves = some l →
    l.started <+: (f.run answers).delivered ∧ l.calls = callsFor handler [] (l.calls.map Prod.fst)
      ∧ ∀ change, l.calling = some change → ∀ m k, l.move? handler m = some k →
        (k.calling = some change ∧ k.calls = l.calls)
          ∨ (k.calling = none ∧ k.calls = l.calls ++ [(change, handler (l.calls.map Prod.fst) change)])
  /-- A handler that breaks down on other calls is called for the same changes at the same moves. -/
  heedless : ∀ handler' moves l, (ofFeed f answers).run? handler moves = some l →
    ∃ k, (ofFeed f answers).run? handler' moves = some k ∧ k.started = l.started ∧ k.subscription = l.subscription
      ∧ k.ended = l.ended
  /-- There is an end to what the loop does, and to what a patient consumer does. -/
  bounded : (∀ moves l, (ofFeed f answers).run? handler moves = some l →
      moves.countP (· ≠ .feed .cancel) ≤ 4 * (f.run answers).delivered.length + 2)
    ∧ ∀ pulls s, (Subscription.ofFeed f answers).run? pulls = some s → Subscription.Patient pulls →
      pulls.length ≤ 4 * (f.run answers).delivered.length + 1
  /-- The loop comes to rest without the feed being cancelled, and so does a patient consumer. -/
  rests : (∀ l : HandlerLoop ε, ∃ after k, .feed .cancel ∉ after ∧ l.run? handler after = some k ∧ k.AtRest handler)
    ∧ ∃ pulls s, (Subscription.ofFeed f answers).run? pulls = some s ∧ Subscription.Patient pulls ∧ s.AtRest
  /-- At rest the handler was called for exactly what a patient consumer has received, which is all that the feed
  delivers; the loop has ended just if the consumer is given nothing, and then both report the same. -/
  whole : ∀ moves l pulls s, (ofFeed f answers).run? handler moves = some l → .feed .cancel ∉ moves →
    l.AtRest handler → (Subscription.ofFeed f answers).run? pulls = some s → Subscription.Patient pulls → s.AtRest →
      l.calls.map Prod.fst = s.received ∧ l.calls = callsFor handler [] s.received
        ∧ s.received = (f.run answers).delivered ∧ (l.ended = true ↔ s.next? = some none) ∧ l.result? = s.result?
  /-- Once the worker has stopped before the feed was cancelled, both report how the feed failed, whatever happens after
  that. -/
  joined : ∀ moves l after k, (ofFeed f answers).run? handler moves = some l → .feed .cancel ∉ moves →
    l.subscription.isStopped = true → l.run? handler after = some k → k.ended = true →
    ∀ pulls s more t, (Subscription.ofFeed f answers).run? pulls = some s → Subscription.Patient pulls →
      s.isStopped = true → s.run? more = some t →
        k.result? = t.result? ∧ ∃ e, t.result? = some (.error e) ∧ (f.run answers).phase = .failed e
  /-- Once the feed is cancelled no further call starts, and the call under way is completed. -/
  cancelled : ∀ moves l after k, (ofFeed f answers).run? handler moves = some l → l.subscription.cancelled = true →
    l.run? handler after = some k → k.started = l.started
      ∧ (k.AtRest handler → k.calls = callsFor handler [] l.started ∧ k.ended = true)

/-- **Push agrees with pull.** Whatever a server does and whichever calls of a handler break down, the handler is called
for the changes that a consumer is given that asks for one after the other, in the same order, once for each and one
call at a time. When the feed ends on its own both report the same, and after it was cancelled no call starts while the
one under way is completed. -/
theorem push_agrees_with_pull (f : Feed ε) (answers : List Answer) (handler : Handler ε) :
    AgreesWithPull f answers handler := by
  constructor
  case pulled =>
    intro moves l h
    obtain ⟨pulls, s, hs, hbeside, hdrop, hcancel⟩ := exists_beside h (.same nofun)
    exact ⟨pulls, s, hs, hbeside, hbeside.received_eq.trans (inOrder_of_run h).started_eq.symm, hdrop, hcancel⟩
  case pushed => exact fun pulls s hs hpatient => exists_run_of_pull handler hs hpatient
  case ordered =>
    intro moves l h
    have horder := inOrder_of_run h
    obtain ⟨pulls, s, hs, hbeside, -⟩ := exists_beside h (.same nofun)
    refine ⟨?_, horder.calls_eq, fun change hcalling m k hm => (move?_eq_some_iff.1 hm).calling hcalling⟩
    rw [horder.started_eq, ← hbeside.received_eq]
    exact Subscription.received_prefix hs
  case heedless =>
    intro handler' moves l h
    have hself : (ofFeed f answers).Alike (ofFeed f answers) := ⟨rfl, rfl, rfl, rfl⟩
    obtain ⟨k, hk, halike⟩ := hself.run handler' h
    exact ⟨k, hk, halike.started_eq, halike.subscription_eq, halike.ended_eq⟩
  case bounded =>
    have hstart : (ofFeed f answers).left = 4 * (f.run answers).delivered.length + 2 := rfl
    refine ⟨fun moves l h => ?_, fun pulls s h hpatient => ?_⟩
    · exact hstart ▸ Nat.le_of_add_right_le (countP_add_left_le h)
    · exact Subscription.left_ofFeed f answers ▸ Nat.le_of_add_right_le (Subscription.length_add_left_le hpatient h)
  case rests =>
    refine ⟨exists_atRest handler, ?_⟩
    obtain ⟨moves, l, hkept, h, hrest⟩ := exists_atRest handler (ofFeed f answers)
    obtain ⟨pulls, s, hs, hpatient, -, hsrest, -⟩ := hrest.exists_patient h hkept
    exact ⟨pulls, s, hs, hpatient, hsrest⟩
  case whole =>
    intro moves l pulls s h hkept hrest hs hpatient hsrest
    obtain ⟨hcalls, hended, hresult⟩ := hrest.agree h hkept hsrest hs hpatient
    refine ⟨?_, hcalls, (Subscription.delivered_of_atRest hs hpatient hsrest).1, hended, hresult⟩
    rw [hcalls, map_fst_callsFor]
  case joined =>
    intro moves l after k h hkept hstopped hafter hended pulls s more t hs hpatient hsstopped hmore
    obtain ⟨e, hresult, hfailed⟩ := reports_failure h hkept hstopped hafter hended
    obtain ⟨e', hresult', hfailed'⟩ := Subscription.reports_failure hs hpatient hsstopped hmore
    obtain rfl : e = e' := WorkerPhase.failed.inj (hfailed.symm.trans hfailed')
    exact ⟨hresult.trans hresult'.symm, e, hresult', hfailed⟩
  case cancelled =>
    intro moves l after k h hcancelled hafter
    obtain ⟨hstarted, hgone⟩ := started_eq_of_run hafter hcancelled
    have horder := inOrder_of_run (run?_append.2 ⟨l, h, hafter⟩)
    refine ⟨hstarted, fun hrest => ⟨?_, hrest.ended hgone⟩⟩
    rw [← hstarted, horder.started_eq]
    exact horder.calls_of_free hrest.free

/-- The first call breaks down; it is not made again, and the second one is made. -/
example : ((ofFeed Subscription.narrow [Subscription.logStream]).run? (fun earlier _ => earlier.isEmpty)
    (eachChange 2)).map (fun l => (l.calls.map fun call => (call.1.id, call.2)))
      = some [(⟨"a"⟩, true), (⟨"é"⟩, false)] := by
  decide +kernel

end HandlerLoop
end DocClient
