/-
# Stopping a feed at its cursor

Whoever cancels a feed takes out what is left in the channel and may follow the feed again from the cursor later. The
cursor moves when a change is read, which is before there is room for it in the channel, so what that gives depends on
what the worker holds when it sees the cancellation (`Subscription.cursor_of_halted`):

| it stops | the cursor is the position of | from there, the changes not received yet |
| --- | --- | --- |
| while it reads | the last change in the channel | all come |
| holding a change without a position | the last change in the channel with a position | come, but for the one it held |
| holding a change with a position | the change that it held | come, but for the one it held |

Nothing that happens later changes this: a worker that has stopped moves no more (`run_drains`).
-/

import DocClient.Proofs.Feed.Channel
import Mathlib.Data.List.DropRight

namespace DocClient
namespace Subscription

open LogRecord (change position dueAfter)

variable {ε : Type} {s t u : Subscription ε}

/-- A subscription is another one after its worker has stopped: if the consumer is still there, it may have taken some
changes out of the channel. -/
structure Drains (s t : Subscription ε) : Prop where
  stopped : t.isStopped = true
  upcoming_eq : t.upcoming = s.upcoming
  cursor_eq : t.cursor = s.cursor
  places : t.dropped = false → s.dropped = false ∧ t.received ++ t.channel = s.received ++ s.channel

/-- A worker that has stopped makes no move. -/
theorem Drains.move {m : Move} (hm : t.Moves m u) (h : Drains s t) : Drains s u := by
  have hstopped := h.stopped
  cases hm with
  | parse hreading | fail hreading => simp [isStopped, hreading] at hstopped
  | hand hholding | giveUp hholding => simp [isStopped, hholding] at hstopped
  | halt hgoing => exact absurd (hgoing.symm.trans hstopped) Bool.false_ne_true
  | @receive change rest hthere hfirst =>
    refine ⟨hstopped, h.upcoming_eq, h.cursor_eq, fun hkept => ?_⟩
    obtain ⟨hbefore, hplaces⟩ := h.places hkept
    refine ⟨hbefore, ?_⟩
    rw [← hplaces, hfirst, List.append_assoc]
    rfl
  | cancel => exact ⟨hstopped, h.upcoming_eq, h.cursor_eq, h.places⟩
  | drop => exact ⟨hstopped, h.upcoming_eq, h.cursor_eq, fun hkept => absurd hkept.symm Bool.false_ne_true⟩

/-- **Once the worker has stopped only the consumer goes on,** and what it has and can still have stays the same. -/
theorem run_drains {moves : List Move} (h : s.run? moves = some t) (hstopped : s.isStopped = true) : Drains s t :=
  run_induction (P := Drains s) Drains.move h ⟨hstopped, rfl, rfl, fun hthere => ⟨hthere, rfl⟩⟩

/-- The changes that the cursor has reached after it has passed some: those up to the last one with a position. -/
def reached (read : List (Change ε)) : List (Change ε) := read.rdropWhile (·.seq.isNone)

/-- A cursor does not move over changes without a position. -/
theorem lastPosition_of_seq_none {start : Sequence} {changes : List (Change ε)} (h : ∀ c ∈ changes, c.seq = none) :
    lastPosition start changes = start := by
  rw [lastPosition_eq, lastSeq?, List.filterMap_eq_nil_iff.2 h]
  rfl

/-- The worker has handed over what the cursor has reached, unless it holds a change with a position. -/
theorem reached_prefix_iff {handed withheld : List (Change ε)} (hone : withheld.length ≤ 1) :
    reached (handed ++ withheld) <+: handed ↔ ∀ c ∈ withheld, c.seq = none := by
  match withheld, hone with
  | [], _ => simpa [reached] using List.rdropWhile_prefix _ _
  | [c], _ =>
    rw [List.forall_mem_singleton]
    cases hc : c.seq with
    | none =>
      rw [reached, List.rdropWhile_concat_pos _ _ _ (by simp [hc])]
      exact iff_of_true (List.rdropWhile_prefix _ _) rfl
    | some p =>
      rw [reached, List.rdropWhile_concat_neg _ _ _ (by simp [hc])]
      refine iff_of_false (fun hlong => ?_) (by simp)
      simpa using hlong.length_le

/-- From the cursor on a log gives what was not handed over, unless something is withheld. -/
theorem handed_dueAfter_iff {l : LineReader ε} {log : List (LogRecord l)} {since : Sequence}
    {handed withheld upcoming : List (Change ε)} (hdistinct : (log.map position).Nodup)
    (hsince : since ∉ log.map position) (hlog : handed ++ withheld ++ upcoming <+: log.map change) :
    handed ++ (dueAfter log since (lastPosition since (handed ++ withheld)).text).map change = log.map change
      ↔ withheld = [] := by
  obtain ⟨rest, hrest⟩ := hlog
  rw [List.append_assoc] at hrest
  obtain ⟨done, due, rfl, hdone, hdue⟩ := List.map_eq_append_iff.1 hrest.symm
  rw [← hdone, LogRecord.dueAfter_lastPosition hdistinct hsince, List.map_append, hdone, List.append_left_inj]
  simp

/-- **Where the cursor of a cancelled feed is.** Let the worker of a subscription see that it was cancelled and stop,
and let the consumer take out as many changes as it wants. Then all that was read has been received or is in the
channel, but for the change that the worker held, and the cursor is the last position of all that was read. So the
consumer has what the cursor has reached just if that change, if any, has no position, and then the cursor is the last
position that was handed over; and from a log of changes it gets everything by following it again from the cursor just
if the worker held nothing. -/
theorem cursor_of_halted (f : Feed ε) (answers : List Answer) {before after : List Move}
    (hs : (ofFeed f answers).run? before = some s) (hu : s.run? (.halt :: after) = some u)
    (hthere : u.dropped = false) :
    ∃ read, read ++ u.upcoming = (f.run answers).delivered
      ∧ u.received ++ u.channel ++ s.held = read
      ∧ u.cursor = lastPosition f.request.since read
      ∧ (reached read <+: u.received ++ u.channel ↔ ∀ c ∈ s.held, c.seq = none)
      ∧ ((∀ c ∈ s.held, c.seq = none) → u.cursor = lastPosition f.request.since (u.received ++ u.channel))
      ∧ ∀ log : List (LogRecord f.lineReader), (log.map position).Nodup → f.request.since ∉ log.map position →
        (f.run answers).delivered <+: log.map change →
        (u.received ++ u.channel ++ (dueAfter log f.request.since u.cursor.text).map change = log.map change
          ↔ s.held = []) := by
  obtain ⟨read, withheld, haccount⟩ := exists_account hs
  obtain ⟨t, ht, hafter⟩ := run?_cons.1 hu
  cases ht with
  | halt hgoing =>
    obtain rfl := (withholds_going hgoing).1 haccount.withholds
    have hdrains := run_drains hafter rfl
    obtain ⟨hkept, hplaces⟩ := hdrains.places hthere
    have hread : u.received ++ u.channel ++ s.held = read := by
      rw [hplaces, ← haccount.places, haccount.kept hkept, List.append_nil]
    have hdelivered : read ++ u.upcoming = (f.run answers).delivered := by
      rw [hdrains.upcoming_eq]
      exact haccount.read_upcoming
    have hcursor : u.cursor = lastPosition f.request.since read := hdrains.cursor_eq.trans haccount.cursor_eq
    refine ⟨read, hdelivered, hread, hcursor, ?_, fun hheld => ?_, fun log hdistinct hsince hlog => ?_⟩
    · rw [← hread]
      exact reached_prefix_iff haccount.withholds.length_le
    · rw [hcursor, ← hread, lastPosition_append, lastPosition_of_seq_none hheld]
    · have hbegun : u.received ++ u.channel ++ s.held ++ u.upcoming <+: log.map change := by
        rwa [hread, hdelivered]
      rw [hcursor, ← hread]
      exact handed_dueAfter_iff hdistinct hsince hbegun

/-- A feed that is cancelled while its worker reads is followed again from its cursor, and nothing is missed. -/
theorem cursor_of_halted_reading :
    ∃ u, (ofFeed narrow [logStream]).run? [.parse, .hand, .cancel, .halt, .receive] = some u
      ∧ u.received ++ u.channel ++ (dueAfter Feed.sampleLog .zero u.cursor.text).map change
        = Feed.sampleLog.map change := by
  have hbefore : ((ofFeed narrow [logStream]).run? [.parse, .hand, .cancel]).any fun s =>
      s.held == [] && (s.run? [.halt, .receive]).any fun u => !u.dropped := by
    decide +kernel
  obtain ⟨s, hs, hends⟩ := (Option.any_eq_true _ _).1 hbefore
  simp only [Bool.and_eq_true, beq_iff_eq, Option.any_eq_true, Bool.not_eq_true'] at hends
  obtain ⟨hheld, u, hu, hthere⟩ := hends
  obtain ⟨-, -, -, -, -, -, hlog⟩ := cursor_of_halted narrow [logStream] hs hu hthere
  have hrun : (ofFeed narrow [logStream]).run? ([.parse, .hand, .cancel] ++ [.halt, .receive]) = some u := by
    rw [run?, List.foldlM_append]
    exact Option.bind_eq_some_iff.2 ⟨s, hs, hu⟩
  refine ⟨u, hrun, (hlog Feed.sampleLog (by decide +kernel) (by decide +kernel) ?_).2 hheld⟩
  exact ⟨[], by decide +kernel⟩

/-- **A feed that is cancelled while its worker waits for room.** The second change is neither received nor in the
channel, but the cursor has its position, and nothing comes after that. -/
theorem narrow_cancelledWhileWaiting :
    ((ofFeed narrow [logStream]).run? [.parse, .hand, .parse, .cancel, .halt]).map
        (fun u => (u.isStopped, u.received, u.channel, u.cursor))
      = some (true, [], (Feed.sampleLog.take 1).map change, ⟨"2"⟩)
      ∧ dueAfter Feed.sampleLog .zero "2" = [] := by
  exact ⟨by decide +kernel, by decide +kernel⟩

end Subscription
end DocClient
