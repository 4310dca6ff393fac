/-
# Nothing is lost between worker and consumer

Every change that a worker has read is in one of four places, and the places follow one another in the order in which
the changes were read (`Subscription.Account`):

| place | how many changes |
| --- | --- |
| taken out by the consumer | any number |
| in the channel | no more than there is room for |
| in the channel when the consumer dropped its end | the same |
| withheld: read, but not handed over | at most one |

The worker withholds a change while it waits for room, and for good if it stops with it, which it does only once the
feed is cancelled. `Subscription.Moves` says all that a move does. Every move keeps the account (`Account.move`), so
every run does (`exists_account`).
-/

import DocClient.Proofs.Feed.Resume
import DocClient.Feed.Subscription

namespace DocClient
namespace Subscription

variable {ε : Type} {s t : Subscription ε}

/-- **What the moves of a subscription do.** -/
inductive Moves (s : Subscription ε) : Move → Subscription ε → Prop
  | parse {change : Change ε} {rest : List (Change ε)} (reading : s.phase = .reading)
    (next : s.upcoming = change :: rest) :
    Moves s .parse { s with upcoming := rest, phase := .holding change, cursor := change.seq.getD s.cursor }
  | hand {change : Change ε} (holding : s.phase = .holding change) (there : s.dropped = false)
    (fits : s.channel.length < s.room) :
    Moves s .hand { s with phase := .reading, channel := s.channel ++ [change] }
  | giveUp {change : Change ε} (holding : s.phase = .holding change) (gone : s.dropped = true) :
    Moves s .hand { s with phase := .stopped (.ok ()) }
  | fail {e : ClientError} (reading : s.phase = .reading) (done : s.upcoming = []) (failure : s.failure = some e) :
    Moves s .fail { s with phase := .stopped (.error e) }
  | halt (going : s.isStopped = false) (cancelled : s.cancelled = true) :
    Moves s .halt { s with phase := .stopped (.ok ()) }
  | receive {change : Change ε} {rest : List (Change ε)} (there : s.dropped = false)
    (first : s.channel = change :: rest) :
    Moves s .receive { s with channel := rest, received := s.received ++ [change] }
  | cancel : Moves s .cancel { s with cancelled := true }
  | drop (there : s.dropped = false) :
    Moves s .drop { s with cancelled := true, dropped := true, channel := [], lost := s.channel }

/-- A move that can be made does what moves do, and the moves that do so can be made. -/
theorem move?_eq_some_iff {m : Move} : s.move? m = some t ↔ s.Moves m t := by
  constructor
  · intro h
    cases m with
    | parse =>
      simp only [move?] at h
      split at h
      · rename_i hreading hnext
        exact Option.some.inj h ▸ .parse hreading hnext
      · exact nomatch h
    | hand =>
      simp only [move?] at h
      split at h
      · rename_i hholding
        split at h
        · rename_i hgone
          exact Option.some.inj h ▸ .giveUp hholding hgone
        · rename_i hthere
          split at h
          · rename_i hfits
            exact Option.some.inj h ▸ .hand hholding (by simpa using hthere) hfits
          · exact nomatch h
      · exact nomatch h
    | fail =>
      simp only [move?] at h
      split at h
      · rename_i hreading hdone hfailure
        exact Option.some.inj h ▸ .fail hreading hdone hfailure
      · exact nomatch h
    | halt =>
      simp only [move?] at h
      split at h
      · exact nomatch h
      · rename_i hgoing
        split at h
        · rename_i hcancelled
          refine Option.some.inj h ▸ .halt ?_ hcancelled
          unfold isStopped
          split
          · rename_i hstopped
            exact absurd hstopped (hgoing _)
          · rfl
        · exact nomatch h
    | receive =>
      simp only [move?] at h
      split at h
      · rename_i hfirst
        split at h
        · exact nomatch h
        · rename_i hthere
          exact Option.some.inj h ▸ .receive (by simpa using hthere) hfirst
      · exact nomatch h
    | cancel => exact Option.some.inj h ▸ .cancel
    | drop =>
      simp only [move?] at h
      split at h
      · exact nomatch h
      · rename_i hthere
        exact Option.some.inj h ▸ .drop (by simpa using hthere)
  · intro h
    cases h with
    | parse hreading hnext => simp [move?, hreading, hnext]
    | hand hholding hthere hfits => simp [move?, hholding, hthere, hfits]
    | giveUp hholding hgone => simp [move?, hholding, hgone]
    | fail hreading hdone hfailure => simp [move?, hreading, hdone, hfailure]
    | halt hgoing hcancelled =>
      unfold isStopped at hgoing
      simp only [move?]
      split
      · rename_i hstopped
        simp [hstopped] at hgoing
      · simp [hcancelled]
    | receive hthere hfirst => simp [move?, hthere, hfirst]
    | cancel => rfl
    | drop hthere => simp [move?, hthere]

/-- A run is its first move and the run after it. -/
theorem run?_cons {m : Move} {moves : List Move} :
    s.run? (m :: moves) = some t ↔ ∃ u, s.Moves m u ∧ u.run? moves = some t := by
  simp only [run?, List.foldlM_cons, Option.bind_eq_bind, Option.bind_eq_some_iff, move?_eq_some_iff]

/-- A run of no moves stays where it is. -/
theorem run?_nil : s.run? [] = some t ↔ s = t := by
  simp [run?]

/-- What every move keeps, every run keeps. -/
theorem run_induction {P : Subscription ε → Prop} (hstep : ∀ {s m t}, s.Moves m t → P s → P t) {moves : List Move} :
    ∀ {s t : Subscription ε}, s.run? moves = some t → P s → P t := by
  induction moves with
  | nil => exact fun h hs => run?_nil.1 h ▸ hs
  | cons m rest ih =>
    intro s t h hs
    obtain ⟨u, hu, hrest⟩ := run?_cons.1 h
    exact ih hrest (hstep hu hs)

/-- The change that the worker is about to hand over, if there is one. -/
def held (s : Subscription ε) : List (Change ε) :=
  match s.phase with
  | .holding change => [change]
  | _ => []

/-- Some changes are what the worker withholds. -/
def Withholds (s : Subscription ε) (withheld : List (Change ε)) : Prop :=
  match s.phase with
  | .stopped _ => withheld = [] ∨ ∃ change, withheld = [change] ∧ s.cancelled = true
  | _ => withheld = s.held

section Withholds

variable {withheld : List (Change ε)}

theorem withholds_reading (h : s.phase = .reading) : s.Withholds withheld ↔ withheld = [] := by
  simp [Withholds, held, h]

theorem withholds_holding {change : Change ε} (h : s.phase = .holding change) :
    s.Withholds withheld ↔ withheld = [change] := by
  simp [Withholds, held, h]

theorem withholds_going (h : s.isStopped = false) : s.Withholds withheld ↔ withheld = s.held := by
  unfold isStopped at h
  unfold Withholds
  split
  · rename_i hstopped
    simp [hstopped] at h
  · rfl

/-- No more than one change is withheld. -/
theorem Withholds.length_le (h : s.Withholds withheld) : withheld.length ≤ 1 := by
  unfold Withholds at h
  split at h
  · rcases h with rfl | ⟨change, rfl, -⟩
    · exact Nat.zero_le _
    · exact Nat.le_refl _
  · subst h
    unfold held
    split
    · exact Nat.le_refl _
    · exact Nat.zero_le _

/-- Once the feed is cancelled the worker may stop with what it withholds. -/
theorem Withholds.stop (h : s.Withholds withheld) (hgoing : s.isStopped = false) {r : Outcome Unit}
    (ht : t.phase = .stopped r) (hcancelled : t.cancelled = true) : t.Withholds withheld := by
  obtain rfl := (withholds_going hgoing).1 h
  simp only [Withholds, ht]
  unfold held
  split
  · exact .inr ⟨_, rfl, hcancelled⟩
  · exact .inl rfl

/-- Cancelling does not change what is withheld. -/
theorem Withholds.cancel (h : s.Withholds withheld) (ht : t.phase = s.phase) (hcancelled : t.cancelled = true) :
    t.Withholds withheld := by
  have hheld : t.held = s.held := by simp only [held, ht]
  unfold Withholds at h ⊢
  rw [ht]
  split at h
  · exact h.imp_right fun ⟨change, hone, _⟩ => ⟨change, hone, hcancelled⟩
  · exact h.trans hheld.symm

end Withholds

/-- **Where the changes are that the worker has read**, in a subscription that began as another one. -/
structure Account (start s : Subscription ε) (read withheld : List (Change ε)) : Prop where
  read_upcoming : read ++ s.upcoming = start.upcoming
  cursor_eq : s.cursor = lastPosition start.cursor read
  places : s.received ++ (s.channel ++ s.lost) ++ withheld = read
  withholds : s.Withholds withheld
  capacity_eq : s.capacity = start.capacity
  fits : s.channel.length ≤ s.room
  kept : s.dropped = false → s.lost = []
  gone : s.dropped = true → s.channel = [] ∧ s.cancelled = true

/-- A subscription to a feed has read nothing yet. -/
theorem account_ofFeed (f : Feed ε) (answers : List Answer) : Account (ofFeed f answers) (ofFeed f answers) [] [] where
  read_upcoming := rfl
  cursor_eq := rfl
  places := rfl
  withholds := rfl
  capacity_eq := rfl
  fits := Nat.zero_le _
  kept _ := rfl
  gone h := nomatch h

/-- **Every move keeps the account.** -/
theorem Account.move {start : Subscription ε} {m : Move} {read withheld : List (Change ε)} (hm : s.Moves m t)
    (h : Account start s read withheld) : ∃ read' withheld', Account start t read' withheld' := by
  cases hm with
  | @parse change rest hreading hnext =>
    obtain rfl := (withholds_reading hreading).1 h.withholds
    refine ⟨read ++ [change], [change], ?_, ?_, ?_, rfl, h.capacity_eq, h.fits, h.kept, h.gone⟩
    · rw [List.append_assoc, ← h.read_upcoming, hnext]
      rfl
    · rw [lastPosition_append, ← h.cursor_eq]
      rfl
    · rw [← h.places, List.append_nil]
  | @hand change hholding hthere hfits =>
    obtain rfl := (withholds_holding hholding).1 h.withholds
    refine ⟨read, [], h.read_upcoming, h.cursor_eq, ?_, rfl, h.capacity_eq, ?_, h.kept, ?_⟩
    · have hplaces := h.places
      simp only [h.kept hthere] at hplaces ⊢
      simpa using hplaces
    · rw [List.length_append]
      exact hfits
    · exact fun hgone => absurd (hthere.symm.trans hgone) Bool.false_ne_true
  | @giveUp change hholding hgone =>
    have hwithholds : Withholds { s with phase := .stopped (.ok ()) } withheld :=
      h.withholds.stop (by simp [isStopped, hholding]) rfl (h.gone hgone).2
    exact ⟨read, withheld, h.read_upcoming, h.cursor_eq, h.places, hwithholds, h.capacity_eq, h.fits, h.kept, h.gone⟩
  | fail hreading =>
    obtain rfl := (withholds_reading hreading).1 h.withholds
    exact ⟨read, [], h.read_upcoming, h.cursor_eq, h.places, .inl rfl, h.capacity_eq, h.fits, h.kept, h.gone⟩
  | halt hgoing hcancelled =>
    have hwithholds : Withholds { s with phase := .stopped (.ok ()) } withheld :=
      h.withholds.stop hgoing rfl hcancelled
    exact ⟨read, withheld, h.read_upcoming, h.cursor_eq, h.places, hwithholds, h.capacity_eq, h.fits, h.kept, h.gone⟩
  | @receive change rest hthere hfirst =>
    refine ⟨read, withheld, h.read_upcoming, h.cursor_eq, ?_, h.withholds, h.capacity_eq, ?_, h.kept, ?_⟩
    · rw [← h.places, hfirst, List.append_assoc s.received]
      rfl
    · have hroom := h.fits
      rw [hfirst] at hroom
      exact Nat.le_of_succ_le hroom
    · exact fun hgone => absurd (hthere.symm.trans hgone) Bool.false_ne_true
  | cancel =>
    have hwithholds : Withholds { s with cancelled := true } withheld := h.withholds.cancel rfl rfl
    exact ⟨read, withheld, h.read_upcoming, h.cursor_eq, h.places, hwithholds, h.capacity_eq, h.fits, h.kept,
      fun hgone => ⟨(h.gone hgone).1, rfl⟩⟩
  | drop hthere =>
    have hwithholds :
        Withholds { s with cancelled := true, dropped := true, channel := [], lost := s.channel } withheld :=
      h.withholds.cancel rfl rfl
    refine ⟨read, withheld, h.read_upcoming, h.cursor_eq, ?_, hwithholds, h.capacity_eq, Nat.zero_le _, ?_, ?_⟩
    · rw [← h.places, h.kept hthere, List.append_nil]
      rfl
    · exact fun hkept => nomatch hkept
    · exact fun _ => ⟨rfl, rfl⟩

/-- **Every run keeps the account.** -/
theorem exists_account {f : Feed ε} {answers : List Answer} {moves : List Move}
    (h : (ofFeed f answers).run? moves = some s) : ∃ read withheld, Account (ofFeed f answers) s read withheld :=
  run_induction (P := fun s => ∃ read withheld, Account (ofFeed f answers) s read withheld)
    (fun hm ⟨_, _, hs⟩ => hs.move hm) h ⟨[], [], account_ofFeed f answers⟩

/-- What the consumer is given when it asks for the next change so many times; `none` where it would have to wait. -/
def nexts : Nat → Subscription ε → Option (List (Option (Change ε)))
  | 0, _ => some []
  | n + 1, s =>
    match s.next? with
    | some answer => (nexts n ((s.move? .receive).getD s)).map (answer :: ·)
    | none => none

/-- **Once the worker has stopped the consumer never waits:** it is given what is in the channel, and then nothing. -/
theorem nexts_of_stopped (n : Nat) : ∀ {s : Subscription ε}, s.isStopped = true → s.dropped = false →
    nexts n s = some ((s.channel.map some ++ List.replicate n none).take n) := by
  induction n with
  | zero => exact fun _ _ => rfl
  | succ n ih =>
    intro s hstopped hthere
    cases hfirst : s.channel with
    | nil =>
      have hnext : s.next? = some none := by simp [next?, hfirst, hstopped]
      have hstays : (s.move? .receive).getD s = s := by simp [move?, hfirst]
      rw [nexts, hnext]
      simp only [hstays, ih hstopped hthere, hfirst]
      simp [List.replicate_succ]
    | cons change rest =>
      have hnext : s.next? = some (some change) := by simp [next?, hfirst]
      have htakes := move?_eq_some_iff.2 (.receive hthere hfirst)
      have hrest := ih (s := { s with channel := rest, received := s.received ++ [change] }) hstopped hthere
      rw [nexts, hnext, htakes]
      simp only [Option.getD_some, hrest]
      simp [List.take_append, List.take_replicate]
      omega

/-- **The channel of a subscription** keeps what was read in order, and each change once. Whatever the moves were, what
the consumer has received and what is in the channel (or was, when the consumer dropped its end) is a beginning of what
the worker has read of the feed, and all of it but for one change at most, which the worker waits with or stopped with
when the feed was cancelled. The channel never has more than its room, and once the worker has stopped the consumer is
given what is in the channel and then nothing. -/
theorem channel_protocol (f : Feed ε) (answers : List Answer) {moves : List Move}
    (h : (ofFeed f answers).run? moves = some s) :
    (∃ read withheld, read ++ s.upcoming = (f.run answers).delivered ∧ s.received ++ s.channel <+: read
        ∧ s.received ++ (s.channel ++ s.lost) ++ withheld = read ∧ s.Withholds withheld ∧ withheld.length ≤ 1)
      ∧ (s.dropped = false → s.lost = [])
      ∧ s.channel.length ≤ max f.settings.channelCapacity 1
      ∧ (s.isStopped = true → s.dropped = false → ∀ extra,
        nexts (s.channel.length + extra) s = some (s.channel.map some ++ List.replicate extra none)) := by
  obtain ⟨read, withheld, haccount⟩ := exists_account h
  have hone := haccount.withholds.length_le
  refine ⟨⟨read, withheld, haccount.read_upcoming, ?_, haccount.places, haccount.withholds, hone⟩, haccount.kept, ?_,
    fun hstopped hthere extra => ?_⟩
  · exact ⟨s.lost ++ withheld, by rw [← haccount.places]; simp⟩
  · have hroom := haccount.fits
    rwa [room, haccount.capacity_eq] at hroom
  · rw [nexts_of_stopped _ hstopped hthere]
    simp [List.take_append, List.take_replicate]

/-- A feed that asks for a channel without room. -/
def narrow : Feed Unit := { Feed.sample with settings := { channelCapacity := 0 } }

/-- A whole stream of the two records of a log. -/
def logStream : Answer := .answered 200 (LogRecord.bytes (Feed.sampleLog.map LogRecord.text)) .closed

/-- The worker stops with the second change in the channel, and the consumer is given it after that. -/
theorem channel_protocol_narrow :
    ∃ s, (ofFeed narrow [logStream]).run? [.parse, .hand, .parse, .receive, .hand, .cancel, .halt] = some s
      ∧ s.received.map (·.id) = [⟨"a"⟩] ∧ s.channel.map (·.id) = [⟨"é"⟩] ∧ s.channel.length ≤ 1
      ∧ nexts (s.channel.length + 1) s = some (s.channel.map some ++ [none]) := by
  have hrun : ((ofFeed narrow [logStream]).run? [.parse, .hand, .parse, .receive, .hand, .cancel, .halt]).any (fun s =>
      s.isStopped && !s.dropped && decide (s.received.map (·.id) = [⟨"a"⟩] ∧ s.channel.map (·.id) = [⟨"é"⟩])) := by
    decide +kernel
  obtain ⟨s, hs, hends⟩ := (Option.any_eq_true _ _).1 hrun
  simp only [Bool.and_eq_true, Bool.not_eq_true', decide_eq_true_eq] at hends
  obtain ⟨⟨hstopped, hthere⟩, hreceived, hchannel⟩ := hends
  obtain ⟨-, -, hroom, hnexts⟩ := channel_protocol narrow [logStream] hs
  exact ⟨s, hs, hreceived, hchannel, hroom, hnexts hstopped hthere 1⟩

end Subscription
end DocClient
