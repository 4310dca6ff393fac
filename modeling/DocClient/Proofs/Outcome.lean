/-
# Steps that may fail

A step that succeeded hands its value on, a step that failed ends what it is a part of; and a sequence of steps
succeeded only if each of them did.
-/

import Mathlib.Data.List.Forall2
import DocClient.Failure

namespace DocClient
namespace Outcome

variable {ε α β : Type}

@[simp] theorem ok_bind (a : α) (f : α → Except ε β) : (Except.ok a >>= f) = f a := rfl

@[simp] theorem error_bind (e : ε) (f : α → Except ε β) : (Except.error e >>= f) = .error e := rfl

@[simp] theorem pure_eq_ok (a : α) : (pure a : Except ε α) = .ok a := rfl

@[simp] theorem map_ok (f : α → β) (a : α) : (Except.ok a : Except ε α).map f = .ok (f a) := rfl

@[simp] theorem map_error (f : α → β) (e : ε) : (Except.error e : Except ε α).map f = .error e := rfl

/-- Two steps succeed when the first does and the second does with its value. -/
theorem bind_eq_ok {x : Except ε α} {f : α → Except ε β} {b : β} :
    (x >>= f) = .ok b ↔ ∃ a, x = .ok a ∧ f a = .ok b := by
  cases x <;> simp

/-- A value made of another is there when the other is. -/
theorem map_eq_ok {x : Except ε α} {f : α → β} {b : β} : x.map f = .ok b ↔ ∃ a, x = .ok a ∧ f a = b := by
  cases x <;> simp

@[simp] theorem ofRead_ok (a : α) : ofRead (.ok a) = .ok a := rfl

/-- What was read is the outcome of reading it. -/
theorem ofRead_eq_ok {r : Except ReadError α} {a : α} : ofRead r = .ok a ↔ r = .ok a := by
  cases r with
  | ok b => simp
  | error e =>
    have he : (ofRead (.error e) : Outcome α) = .error (.serialization e) := rfl
    simp [he]

/-- What cannot be read has the wrong shape. -/
theorem exists_fault_of_ofRead {r : Except ReadError α} {e : ClientError} (h : ofRead r = .error e) :
    ∃ fault, e = .serialization fault := by
  cases r with
  | ok a => exact nomatch h
  | error fault => exact ⟨fault, (Except.error.inj h).symm⟩

/-- A list is made into another exactly if each of its elements is made into the one in its place. -/
theorem mapM_eq_ok_iff {f : α → Outcome β} {xs : List α} {ys : List β} :
    xs.mapM f = .ok ys ↔ List.Forall₂ (fun x y => f x = .ok y) xs ys := by
  induction xs generalizing ys with
  | nil => simp [eq_comm]
  | cons x rest ih =>
    rw [List.mapM_cons, List.forall₂_cons_left_iff]
    constructor
    · intro h
      obtain ⟨y, hy, h⟩ := bind_eq_ok.1 h
      obtain ⟨later, hlater, h⟩ := bind_eq_ok.1 h
      exact ⟨y, later, hy, ih.1 hlater, (Except.ok.inj h).symm⟩
    · rintro ⟨y, later, hy, hlater, rfl⟩
      rw [hy, ok_bind, ih.2 hlater]
      rfl

/-- What a list is made into, one by one, stands in the places of the list. -/
theorem getElem?_of_mapM {f : α → Outcome β} {xs : List α} {ys : List β} (h : xs.mapM f = .ok ys) {i : Nat} {x : α}
    (hx : xs[i]? = some x) : ∃ y, f x = .ok y ∧ ys[i]? = some y := by
  have hmade := mapM_eq_ok_iff.1 h
  obtain ⟨hi, rfl⟩ := List.getElem?_eq_some_iff.1 hx
  have hj : i < ys.length := hmade.length_eq ▸ hi
  exact ⟨ys[i], hmade.get hi hj, List.getElem?_eq_getElem hj⟩

/-- What is made of an element is there. -/
theorem exists_of_mapM {f : α → Outcome β} {xs : List α} {ys : List β} (h : xs.mapM f = .ok ys) {x : α} (hx : x ∈ xs) :
    ∃ y ∈ ys, f x = .ok y := by
  obtain ⟨i, hi⟩ := List.mem_iff_getElem?.1 hx
  obtain ⟨y, hy, hj⟩ := getElem?_of_mapM h hi
  exact ⟨y, List.mem_of_getElem? hj, hy⟩

/-- A list is made into a list of its length. -/
theorem length_of_mapM {f : α → Outcome β} {xs : List α} {ys : List β} (h : xs.mapM f = .ok ys) :
    ys.length = xs.length := (mapM_eq_ok_iff.1 h).length_eq.symm

/-- A list is made into one, or there is a first element of which nothing is made. -/
theorem mapM_spec (f : α → Outcome β) (xs : List α) :
    (∃ ys, xs.mapM f = .ok ys)
      ∨ ∃ before x after e, xs = before ++ x :: after ∧ (∃ ys, before.mapM f = .ok ys) ∧ f x = .error e
        ∧ xs.mapM f = .error e := by
  induction xs with
  | nil => exact .inl ⟨[], rfl⟩
  | cons x rest ih =>
    rw [List.mapM_cons]
    cases hx : f x with
    | error e => exact .inr ⟨[], x, rest, e, rfl, ⟨[], rfl⟩, hx, rfl⟩
    | ok y =>
      rcases ih with ⟨ys, hys⟩ | ⟨before, x', after, e, rfl, ⟨ys, hys⟩, hx', hrest⟩
      · exact .inl ⟨y :: ys, by rw [hys]; rfl⟩
      · refine .inr ⟨x :: before, x', after, e, rfl, ⟨y :: ys, ?_⟩, hx', by rw [hrest]; rfl⟩
        simp [List.mapM_cons, hx, hys]

/-- A list with an element in its midst is made into a list with what is made of the element. -/
theorem mapM_append_cons (f : α → Except ε β) (before : List α) (x : α) (after : List α) :
    (before ++ x :: after).mapM f = (do
      let earlier ← before.mapM f
      let y ← f x
      let later ← after.mapM f
      return earlier ++ y :: later) := by
  simp only [List.mapM_append, List.mapM_cons, bind_assoc, pure_bind]

/-- A list is made into one exactly if something is made of each of its elements. -/
theorem exists_mapM_iff {f : α → Outcome β} {xs : List α} :
    (∃ ys, xs.mapM f = .ok ys) ↔ ∀ x ∈ xs, ∃ y, f x = .ok y := by
  constructor
  · rintro ⟨ys, hys⟩ x hx
    obtain ⟨y, -, hy⟩ := exists_of_mapM hys hx
    exact ⟨y, hy⟩
  · intro hall
    rcases mapM_spec f xs with hys | ⟨before, x, after, e, rfl, -, hfails, -⟩
    · exact hys
    · obtain ⟨y, hy⟩ := hall x (List.mem_append_right _ (List.mem_cons_self ..))
      rw [hfails] at hy
      exact nomatch hy

/-- A list is not made into one exactly if nothing is made of an element and something of each before it. -/
theorem mapM_eq_error_iff {f : α → Outcome β} {xs : List α} {e : ClientError} :
    xs.mapM f = .error e
      ↔ ∃ before x after, xs = before ++ x :: after ∧ (∀ b ∈ before, ∃ y, f b = .ok y) ∧ f x = .error e := by
  constructor
  · intro h
    rcases mapM_spec f xs with ⟨ys, hys⟩ | ⟨before, x, after, e', hxs, hbefore, hx, hall⟩
    · rw [hys] at h
      exact nomatch h
    · rw [hall] at h
      obtain rfl := Except.error.inj h
      exact ⟨before, x, after, hxs, exists_mapM_iff.1 hbefore, hx⟩
  · rintro ⟨before, x, after, rfl, hbefore, hx⟩
    obtain ⟨earlier, hearlier⟩ := exists_mapM_iff.2 hbefore
    rw [mapM_append_cons, hearlier, hx]
    rfl

end Outcome
end DocClient
