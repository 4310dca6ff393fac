/-
# Texts that are cut off

The machine that reads a text knows when the outermost value is over: its stack is empty then, and from there on nothing
but white space leaves it where it is (`Scan.Settled`). A text that reads as an object is over at its closing brace, so
a text that ends with that brace reads as an object only as a whole: cut off anywhere it reads as none
(`Reader.ofText_object_prefix`).
-/

import DocClient.Json.Reader
import DocClient.Proofs.Outcome

namespace DocClient

namespace Draft
namespace Scan

/-- Nothing follows the outermost value: where it is read, no container is open, and the machine waits for the end or
has stopped. -/
def Settled (s : Scan) : Prop := s.root.isSome → s.stack = [] ∧ (s.mode = .next ∨ ∃ u, s.mode = .stopped u)

theorem settled_of_root {s : Scan} (h : s.root = none) : s.Settled := fun hs => by simp [h] at hs

/-- Inside a container the outermost value is not over. -/
theorem Settled.root_of_stack {s : Scan} (h : s.Settled) (hs : s.stack ≠ []) : s.root = none :=
  Option.not_isSome_iff_eq_none.1 fun hroot => hs (h hroot).1

/-- In the middle of something the outermost value is not over. -/
theorem Settled.root_of_mode {s : Scan} (h : s.Settled) (hnext : s.mode ≠ .next) (hstopped : ∀ u, s.mode ≠ .stopped u) :
    s.root = none := by
  refine Option.not_isSome_iff_eq_none.1 fun hroot => ?_
  rcases (h hroot).2 with hm | ⟨u, hm⟩
  · exact hnext hm
  · exact hstopped u hm

theorem Settled.stop {s : Scan} (h : s.Settled) : s.stop.Settled := fun hs => ⟨(h hs).1, .inr ⟨_, rfl⟩⟩

/-- A value that is put in its place is the outermost one only where no container is open. -/
theorem settled_finish {s : Scan} (h : s.root = none) (v : Draft) : (s.finish v).Settled := by
  rw [finish]
  split
  · rename_i hstack
    exact fun _ => ⟨hstack, .inl rfl⟩
  · exact settled_of_root h
  · exact settled_of_root h
  · exact settled_of_root h

theorem Settled.close {s : Scan} (h : s.Settled) (c : Char) : (s.close c).Settled := by
  rw [Scan.close]
  split
  · rename_i done rest hstack
    have hroot : s.root = none := h.root_of_stack (by simp [hstack])
    split
    · exact settled_finish (s := { s with stack := rest }) hroot _
    · exact h.stop
  · rename_i done rest hstack
    have hroot : s.root = none := h.root_of_stack (by simp [hstack])
    split
    · exact settled_finish (s := { s with stack := rest }) hroot _
    · exact h.stop
  · exact h.stop

theorem Settled.afterValue {s : Scan} (h : s.Settled) (c : Char) : (s.afterValue c).Settled := by
  rw [Scan.afterValue]
  split
  · exact h
  · split
    · split
      · rename_i hstack
        exact settled_of_root (h.root_of_stack (by simp [hstack]))
      · rename_i hstack
        exact settled_of_root (h.root_of_stack (by simp [hstack]))
      · exact h.stop
    · exact h.close c

theorem root_begin (s : Scan) (c : Char) : (s.begin c).root = s.root := by
  rw [begin]
  split
  · rfl
  · split
    · rfl
    · split
      · rfl
      · split
        · rfl
        · split
          · rfl
          · split
            · rfl
            · split <;> rfl

theorem root_beginKey (s : Scan) (c : Char) : (s.beginKey c).root = s.root := by
  rw [beginKey]
  split <;> rfl

theorem settled_endQuote {s : Scan} (h : s.root = none) (isKey : Bool) (q : Quote) : (s.endQuote isKey q).Settled := by
  rw [endQuote]
  split
  · split
    · exact settled_of_root h
    · exact settled_of_root h
  · exact settled_finish h _

/-- **One character keeps the machine settled.** -/
theorem Settled.step {s : Scan} (h : s.Settled) (c : Char) : (s.step c).Settled := by
  rw [Scan.step]
  split
  case h_6 hm => exact h.afterValue c
  case h_10 hm => exact h
  all_goals
    rename_i hm
    have hroot : s.root = none := h.root_of_mode (by simp [hm]) (by simp [hm])
  case h_1 =>
    split
    · exact h
    · exact settled_of_root (by rwa [root_begin])
  case h_2 =>
    split
    · exact h
    · split
      · exact h.close c
      · exact settled_of_root (by rwa [root_begin])
  case h_3 =>
    split
    · exact h
    · split
      · exact h.close c
      · exact settled_of_root (by rwa [root_beginKey])
  case h_4 =>
    split
    · exact h
    · exact settled_of_root (by rwa [root_beginKey])
  case h_5 =>
    split
    · exact h
    · split <;> exact settled_of_root hroot
  case h_7 =>
    split
    · exact h.stop
    · split
      · exact settled_finish hroot _
      · exact h.stop
    · split <;> exact settled_of_root hroot
  case h_8 =>
    split
    · split
      · exact settled_endQuote hroot _ _
      · split <;> exact settled_of_root hroot
    · split <;> exact settled_of_root hroot
  case h_9 =>
    split
    · exact settled_of_root hroot
    · split
      · exact (settled_finish hroot _).afterValue c
      · exact h.stop

theorem Settled.run {s : Scan} (h : s.Settled) (cs : List Char) : (s.run cs).Settled := by
  induction cs generalizing s with
  | nil => exact h
  | cons c rest ih => exact ih (h.step c)

/-- A machine that has stopped stays as it is. -/
theorem run_stopped {s : Scan} {u : Bool} (h : s.mode = .stopped u) (cs : List Char) : s.run cs = s := by
  induction cs with
  | nil => rfl
  | cons c rest ih =>
    have hstep : s.step c = s := by
      rw [Scan.step, h]
    rw [run, List.foldl_cons, hstep]
    exact ih

/-- After the outermost value only white space leaves the machine waiting. -/
theorem run_after_root {s : Scan} (hstack : s.stack = []) (hmode : s.mode = .next) (cs : List Char) :
    (∀ c ∈ cs, isSpace c) ∨ ∃ u, (s.run cs).mode = .stopped u := by
  induction cs with
  | nil => exact .inl fun c hc => absurd hc List.not_mem_nil
  | cons c rest ih =>
    rw [run, List.foldl_cons]
    by_cases hc : isSpace c
    · have hstep : s.step c = s := by
        simp [Scan.step, hmode, Scan.afterValue, hc]
      rw [hstep]
      exact ih.imp_left fun h => List.forall_mem_cons.2 ⟨hc, h⟩
    · have hstep : s.step c = s.stop := by
        by_cases hcomma : c = ','
        · simp [Scan.step, hmode, Scan.afterValue, hcomma, hstack, isSpace]
        · simp [Scan.step, hmode, Scan.afterValue, hc, hcomma, hstack, Scan.close]
      have hstopped : s.stop.mode = .stopped (unfinished s.mode) := rfl
      rw [hstep]
      exact .inr ⟨_, (congrArg Scan.mode (run_stopped hstopped rest)).trans hstopped⟩

end Scan
end Draft

namespace Reader

open Draft (Scan)

/-- Where a text reads as an object, the machine has read the object to its end. -/
theorem scan_of_ofText_object {cs : List Char} {o : Object} (h : ofText object cs = .ok o) :
    (Scan.run {} cs).stack = [] ∧ (Scan.run {} cs).mode = .next := by
  obtain ⟨members, hobject, h⟩ := Outcome.bind_eq_ok.1 h
  obtain ⟨u, hwhole, -⟩ := Outcome.bind_eq_ok.1 h
  have hsettled : (Scan.run {} cs).Settled := (Scan.settled_of_root rfl : ({} : Scan).Settled).run cs
  rw [Draft.ofText] at hobject hwhole
  generalize Scan.run {} cs = s at *
  -- a number at the end of the text is no object, be it the outermost value or inside a container
  have hnumeral : ∀ n, s.mode ≠ .numeral n := by
    intro n hm
    have hroot : s.root = none := hsettled.root_of_mode (by simp [hm]) (by simp [hm])
    cases hcomplete : n.complete with
    | false => simp [Scan.conclude, hm, hcomplete, hroot, whole] at hwhole
    | true =>
      cases hstack : s.stack with
      | nil =>
        simp only [Scan.conclude, hm, hcomplete, if_true, Scan.finish, hstack, Scan.ofNumeral] at hobject
        cases hvalue : n.value? <;> simp [hvalue, object, mismatch, Draft.found?] at hobject
      | cons frame rest =>
        cases frame <;> simp [Scan.conclude, hm, hcomplete, Scan.finish, hstack, hroot, whole, Scan.stop] at hwhole
  have hconclude : s.conclude = s := by
    rw [Scan.conclude]
    split
    · rename_i n hm
      exact absurd hm (hnumeral n)
    · rfl
  rw [hconclude] at hwhole
  cases hroot : s.root with
  | none => simp [hroot, whole] at hwhole
  | some root =>
    obtain ⟨hstack, hm | ⟨u, hm⟩⟩ := hsettled (by simp [hroot])
    · exact ⟨hstack, hm⟩
    · simp [hroot, hm, whole] at hwhole

/-- **A text that reads as an object and ends with its brace is no object if it is cut off.** -/
theorem ofText_object_prefix {text cut : List Char} {o : Object} (h : ofText object text = .ok o)
    (hend : text.getLast? = some '\x7d') (hcut : cut <+: text) (hne : cut ≠ text) (o' : Object) :
    ofText object cut ≠ .ok o' := by
  intro h'
  obtain ⟨rest, rfl⟩ := hcut
  have hrest : rest ≠ [] := by
    rintro rfl
    exact hne (List.append_nil cut).symm
  obtain ⟨hstack, hmode⟩ := scan_of_ofText_object h'
  obtain ⟨-, hmode'⟩ := scan_of_ofText_object h
  rw [Scan.run_append] at hmode'
  rcases Scan.run_after_root hstack hmode rest with hspace | ⟨u, hu⟩
  · have hlast : '\x7d' ∈ rest := by
      rw [List.getLast?_append, List.getLast?_eq_some_getLast hrest, Option.some_or] at hend
      obtain heq := Option.some.inj hend
      exact heq ▸ List.getLast_mem hrest
    exact absurd (hspace _ hlast) (by decide)
  · rw [hu] at hmode'
    cases hmode'

end Reader
end DocClient
