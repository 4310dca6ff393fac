/-
# Where a connection starts

A query has two names for the position that a feed starts at, and a connection may use both:

| the name | its value on the first connection | on a connection after a delivery |
| --- | --- | --- |
| `since` | the position that was asked for | the cursor |
| `last-event-id` | the position that was asked for | the same position still |

The cursor takes the place of the first value only. A feed that was asked for with a last event therefore names two
positions once it has delivered something, the cursor and one that the cursor has left behind; and the cursor is the
only position that it names exactly if it was asked for without a last event, or with the one where the cursor stands
(`Feed.starts_of_delivered`).
-/

import DocClient.Proofs.Feed.BadLines

namespace DocClient

/-- The names that a start position has in a query. -/
def startNames : List String := ["since", "last-event-id"]

/-- The start positions that a query names, in order. -/
def startPositions (pairs : List (String × String)) : List String :=
  (pairs.filter fun p => p.1 ∈ startNames).map Prod.snd

/-- A query names a position, and no other one, as the start. -/
def StartsAt (p : Sequence) (pairs : List (String × String)) : Prop :=
  startPositions pairs ≠ [] ∧ ∀ q ∈ startPositions pairs, q = p.text

theorem startPositions_append (before after : List (String × String)) :
    startPositions (before ++ after) = startPositions before ++ startPositions after := by
  rw [startPositions, List.filter_append, List.map_append]
  rfl

/-- Pairs of other names name no start. -/
theorem startPositions_eq_nil {pairs : List (String × String)} (h : ∀ p ∈ pairs, p.1 ∉ startNames) :
    startPositions pairs = [] := by
  have hnone : pairs.filter (fun p => p.1 ∈ startNames) = [] :=
    List.filter_eq_nil_iff.2 fun p hp => by simpa using h p hp
  rw [startPositions, hnone, List.map_nil]

namespace FeedRequest

variable (r : FeedRequest)

theorem startPositions_switches :
    startPositions ((r.switches.filter Prod.snd).map fun s => (s.1, "true")) = [] := by
  refine startPositions_eq_nil fun p hp => ?_
  obtain ⟨s, hs, rfl⟩ := List.mem_map.1 hp
  have hnames : ∀ s ∈ r.switches, s.1 ∉ startNames := by
    simp [switches, startNames]
  exact hnames s (List.mem_of_mem_filter hs)

theorem startPositions_numbers :
    startPositions (r.numbers.filterMap fun n => n.2.map fun value => (n.1, toString value)) = [] := by
  refine startPositions_eq_nil fun p hp => ?_
  obtain ⟨n, hn, hp⟩ := List.mem_filterMap.1 hp
  obtain ⟨value, -, rfl⟩ := Option.map_eq_some_iff.1 hp
  have hnames : ∀ n ∈ r.numbers, n.1 ∉ startNames := by
    simp [numbers, startNames]
  exact hnames n hn

/-- An option of a name that no start position has. -/
theorem startPositions_option (value : Option String) {name : String} (h : name ∉ startNames) :
    startPositions (value.map fun v => (name, v)).toList = [] := by
  refine startPositions_eq_nil fun p hp => ?_
  obtain ⟨v, -, rfl⟩ := Option.map_eq_some_iff.1 (Option.mem_toList.1 hp)
  exact h

/-- **A query names the position of its connection and the last event of its request.** -/
theorem startPositions_query (since : Sequence) :
    startPositions (r.query since) = since.text :: (r.lastEventId.map Sequence.text).toList := by
  have hhead : startPositions [("feed", "continuous"), ("heartbeat", toString r.heartbeat), ("since", since.text),
      ("style", r.style.text)] = [since.text] := by
    simp [startPositions, startNames]
  have hlast : startPositions (r.lastEventId.map fun id => ("last-event-id", id.text)).toList
      = (r.lastEventId.map Sequence.text).toList := by
    cases r.lastEventId <;> simp [startPositions, startNames]
  simp only [query, startPositions_append, hhead, hlast, r.startPositions_switches, r.startPositions_numbers]
  rw [startPositions_option _ (by decide), startPositions_option _ (by decide)]
  simp

/-- The position of a connection is the only start that its query names just if the request has no other last event. -/
theorem startsAt_query (p : Sequence) : StartsAt p (r.query p) ↔ ∀ id, r.lastEventId = some id → id = p := by
  rw [StartsAt, r.startPositions_query]
  constructor
  · rintro ⟨-, h⟩ id hid
    exact Sequence.text_inj.1 (h id.text (by simp [hid]))
  · intro h
    refine ⟨List.cons_ne_nil _ _, fun q hq => ?_⟩
    rcases List.mem_cons.1 hq with rfl | hq
    · rfl
    · obtain ⟨id, hid, rfl⟩ := Option.map_eq_some_iff.1 (Option.mem_toList.1 hq)
      rw [h id hid]

end FeedRequest

variable {ε : Type}

namespace Feed

variable (f : Feed ε)

/-- A connection brings at most one request to the server, and one just if the worker gets to it. -/
theorem requests_step (w : Worker ε) (a : Answer) : ∃ made : List Request,
    (f.step w a).requests = w.requests ++ made ∧ made.length ≤ 1
      ∧ (made ≠ [] ↔ w.phase = .waiting ∧ f.isReachable ∧ a.arrived) ∧ ∀ r ∈ made, f.Asks w.cursor r := by
  by_cases hw : w.phase = .waiting
  · obtain ⟨-, -, hrequests, -, -⟩ := f.step_waiting hw (.whole a)
    rw [Arrival.answer_whole] at hrequests
    have hreach := f.isSome_requestAt w.cursor
    refine ⟨f.arrivals w.cursor a, hrequests, ?_, ?_, ?_⟩
    · rw [arrivals]
      split
      · exact Option.length_toList_le
      · exact Nat.zero_le 1
    · rw [arrivals]
      cases a.arrived <;> cases hr : f.requestAt w.cursor <;> simp [hw, ← hreach, hr]
    · intro r hr
      rw [arrivals] at hr
      split at hr
      · exact f.asks_of_requestAt (Option.mem_toList.1 hr)
      · exact absurd hr List.not_mem_nil
  · rw [f.step_of_ne_waiting hw]
    exact ⟨[], (List.append_nil _).symm, Nat.zero_le 1, by simp [hw], fun _ hr => absurd hr List.not_mem_nil⟩

/-- **After a delivery a connection starts at the cursor, and at the last event of its request if that has one.** The
position of the last change that had one is the cursor; the connection posts at most one request, with the query of the
cursor; and the cursor is the only start position in it exactly if the request has no last event other than it. -/
theorem starts_of_delivered (earlier : List Answer) (a : Answer) {p : Sequence}
    (hp : lastSeq? (f.run earlier).delivered = some p) :
    (f.run earlier).cursor = p
    ∧ ∃ made : List Request, (f.run (earlier ++ [a])).requests = (f.run earlier).requests ++ made
      ∧ made.length ≤ 1
      ∧ (made ≠ [] ↔ (f.run earlier).phase = .waiting ∧ f.isReachable ∧ a.arrived)
      ∧ (∀ r ∈ made, f.Asks p r)
      ∧ startPositions (f.request.query p) = p.text :: (f.request.lastEventId.map Sequence.text).toList
      ∧ (StartsAt p (f.request.query p) ↔ ∀ id, f.request.lastEventId = some id → id = p) := by
  have hcursor : (f.run earlier).cursor = p := by
    rw [f.cursor_run, lastPosition_eq, hp]
    rfl
  obtain ⟨made, hrequests, hlength, hmade, hasks⟩ := f.requests_step (f.run earlier) a
  rw [hcursor] at hasks
  rw [f.run_concat]
  exact ⟨hcursor, made, hrequests, hlength, hmade, hasks, f.request.startPositions_query p,
    f.request.startsAt_query p⟩

/-- A feed that is asked for with a last event. -/
def sampleAfterEvent : Feed Unit := { sample with request := { lastEventId := some ⟨"5-e"⟩ } }

/-- The second connection of that feed, after the delivery of a change at another position, is made and starts at both
positions. -/
theorem starts_of_delivered_sample : ∃ made : List Request,
    (sampleAfterEvent.run [sends [sampleLine] .closed, sends [] .closed]).requests
        = (sampleAfterEvent.run [sends [sampleLine] .closed]).requests ++ made
      ∧ made ≠ [] ∧ (∀ r ∈ made, sampleAfterEvent.Asks ⟨"1-g"⟩ r)
      ∧ ¬ StartsAt ⟨"1-g"⟩ (sampleAfterEvent.request.query ⟨"1-g"⟩) := by
  have hp : lastSeq? (sampleAfterEvent.run [sends [sampleLine] .closed]).delivered = some ⟨"1-g"⟩ := by
    decide +kernel
  obtain ⟨-, made, hrequests, -, hmade, hasks, -, hstart⟩ :=
    sampleAfterEvent.starts_of_delivered [sends [sampleLine] .closed] (sends [] .closed) hp
  have hother : ¬ ∀ id, sampleAfterEvent.request.lastEventId = some id → id = ⟨"1-g"⟩ :=
    fun h => absurd (h ⟨"5-e"⟩ rfl) (by decide)
  exact ⟨made, hrequests, hmade.2 (by decide +kernel), hasks, mt hstart.1 hother⟩

/-- The cursor has left the last event behind, and the second connection asks for what follows that event all the
same. -/
theorem startPositions_sampleAfterEvent :
    lastSeq? (sampleAfterEvent.run [sends [sampleLine] .closed]).delivered = some ⟨"1-g"⟩
      ∧ (sampleAfterEvent.run [sends [sampleLine] .closed, sends [] .closed]).requests.map
          (fun r => startPositions r.pairs) = [["now", "5-e"], ["1-g", "5-e"]] := by
  decide +kernel

end Feed
end DocClient
