/-
# Failures that are found before anything is sent

A call looks at what it is given before it sends its request, and what it may find is a failure of one of four kinds
(`ClientError.isUpfront`). That it looks at everything first is a matter of each of its parts:

| part | has to be |
| --- | --- |
| a check of the arguments (`Outcome.Refuses`) | a misuse if something is wrong, and nothing else |
| what is made of a reply (`Outcome.Late`) | no upfront failure |
| the call (`Call.Checked`) | done as a misuse, or with what is made of its reply being late |

A plan whose parts are so comes to such calls only (`Plan.Checked`), and such a call sends nothing where it fails
upfront (`Call.Checked.checksFirst`).
-/

import DocClient.Proofs.Client
import DocClient.Session

namespace DocClient

namespace ClientError

/-- The failure is one that a call finds by looking at what it is given. -/
def isUpfront : ClientError → Bool
  | .invariantViolation _ | .missingMetadata _ | .invalidMetadata _ | .codec _ => true
  | _ => false

theorem isUpfront_of_isInvariantViolation {e : ClientError} (h : e.isInvariantViolation = true) :
    e.isUpfront = true := by
  cases e <;> first | rfl | exact nomatch h

end ClientError

namespace Outcome

variable {α β : Type} {r : Outcome α}

/-- An outcome that is no upfront failure. -/
def Late (r : Outcome α) : Prop := ∀ e, r = .error e → e.isUpfront = false

theorem late_ok (a : α) : Late (.ok a) := fun _ h => nomatch h

theorem late_error {e : ClientError} (h : e.isUpfront = false) : Late (.error e : Outcome α) := by
  rintro e' ⟨⟩
  exact h

theorem Late.bind {f : α → Outcome β} (hr : Late r) (hf : ∀ a, Late (f a)) : Late (r >>= f) := by
  cases r with
  | ok a => exact hf a
  | error e => exact late_error (hr e rfl)

theorem Late.map (hr : Late r) (f : α → β) : Late (r.map f) := by
  cases r with
  | ok a => exact late_ok (f a)
  | error e => exact late_error (hr e rfl)

/-- What is made of a list fails as an element of it does. -/
theorem error_of_mapM {f : α → Outcome β} {xs : List α} {e : ClientError} (h : xs.mapM f = .error e) :
    ∃ x ∈ xs, f x = .error e := by
  rcases mapM_spec f xs with ⟨ys, hys⟩ | ⟨before, x, after, e', rfl, -, hx, hall⟩
  · exact nomatch hys.symm.trans h
  · obtain rfl := Except.error.inj (hall.symm.trans h)
    exact ⟨x, by simp, hx⟩

theorem late_mapM {f : α → Outcome β} (hf : ∀ a, Late (f a)) (xs : List α) : Late (xs.mapM f) := by
  intro e he
  obtain ⟨x, -, hx⟩ := error_of_mapM he
  exact hf x e hx

theorem late_ofRead (r : Except ReadError α) : Late (Outcome.ofRead r) := by
  cases r with
  | ok a => exact late_ok a
  | error e => exact late_error rfl

/-- An outcome that is a misuse if something is wrong, and goes through if nothing is. -/
def Refuses (wrong : Prop) (r : Outcome α) : Prop :=
  (wrong ∧ ∃ m, r = .error (.misuse m)) ∨ (¬ wrong ∧ ∃ a, r = .ok a)

variable {wrong also : Prop}

theorem refuses_forbid (misused : Bool) (m : Misuse) : Refuses (misused = true) (forbid misused m) := by
  cases misused with
  | true => exact .inl ⟨rfl, m, rfl⟩
  | false => exact .inr ⟨Bool.false_ne_true, (), rfl⟩

theorem refuses_ok (a : α) : Refuses False (.ok a) := .inr ⟨not_false, a, rfl⟩

/-- One check and then another refuse what either of them refuses. -/
theorem Refuses.bind {f : α → Outcome β} (hr : Refuses wrong r) (hf : ∀ a, Refuses also (f a)) :
    Refuses (wrong ∨ also) (r >>= f) := by
  rcases hr with ⟨hwrong, m, rfl⟩ | ⟨hright, a, rfl⟩
  · exact .inl ⟨.inl hwrong, m, rfl⟩
  · rcases hf a with ⟨halso, m, hm⟩ | ⟨hnot, b, hb⟩
    · exact .inl ⟨.inr halso, m, hm⟩
    · exact .inr ⟨not_or.2 ⟨hright, hnot⟩, b, hb⟩

/-- Checks of all members refuse a list with a wrong member anywhere. -/
theorem refuses_forM {wrong : α → Prop} {check : α → Outcome Unit} (h : ∀ x, Refuses (wrong x) (check x))
    (xs : List α) : Refuses (∃ x ∈ xs, wrong x) (xs.forM check) := by
  induction xs with
  | nil => exact .inr ⟨by simp, (), rfl⟩
  | cons x rest ih =>
    have hcons : (x :: rest).forM check = check x >>= fun _ => rest.forM check := rfl
    rw [hcons, List.exists_mem_cons_iff]
    exact (h x).bind fun _ => ih

end Outcome

open Outcome

namespace Call

variable {α β : Type} {misused : Prop}

/-- **A call is checked** for a misuse: if it is done then with a violation just where there is one, and if it sends a
request then there is none, and what is made of the reply is no upfront failure. -/
inductive Checked (misused : Prop) : Call α → Prop
  | done {result : Outcome α} (told : (∃ e, result = .error e ∧ e.isInvariantViolation = true) ↔ misused) :
    Checked misused (.done result)
  | send {request : Request} {receive : Reply → Outcome α} (allowed : ¬ misused)
    (late : ∀ reply, Late (receive reply)) : Checked misused (.send request receive)

theorem checked_ok (a : α) : Checked False (.done (.ok a)) := .done (by simp)

theorem checked_error {e : ClientError} (h : e.isInvariantViolation = false) :
    Checked False (.done (.error e) : Call α) := .done (by simp [h])

theorem checked_misuse (h : misused) (m : Misuse) : Checked misused (.done (.error (.misuse m)) : Call α) :=
  .done ⟨fun _ => h, fun _ => ⟨_, rfl, rfl⟩⟩

theorem Checked.congr {misused' : Prop} {call : Call α} (h : call.Checked misused) (heq : misused' ↔ misused) :
    call.Checked misused' := propext heq ▸ h

/-- A checked call stays so when its result is gone on with, by what is no upfront failure. -/
theorem Checked.andThen {call : Call α} {f : α → Outcome β} (h : call.Checked misused) (hf : ∀ a, Late (f a)) :
    (call.andThen f).Checked misused := by
  cases h with
  | send allowed late => exact .send allowed fun reply => (late reply).bind hf
  | @done result told =>
    refine .done (Iff.trans ⟨?_, ?_⟩ told)
    · rintro ⟨e, he, hviolation⟩
      cases result with
      | error e' => exact ⟨e, congrArg Except.error (Except.error.inj he), hviolation⟩
      | ok a =>
        have hlate := hf a e he
        exact absurd (ClientError.isUpfront_of_isInvariantViolation hviolation) (hlate ▸ Bool.false_ne_true)
    · rintro ⟨e, rfl, hviolation⟩
      exact ⟨e, rfl, hviolation⟩

/-- A checked call that is misused is done with an upfront failure. -/
theorem Checked.refused {call : Call α} (h : call.Checked misused) (hmisused : misused) :
    ∃ e, call = .done (.error e) ∧ e.isUpfront = true := by
  cases h with
  | send allowed _ => exact absurd hmisused allowed
  | done told =>
    obtain ⟨e, rfl, hviolation⟩ := told.2 hmisused
    exact ⟨e, rfl, ClientError.isUpfront_of_isInvariantViolation hviolation⟩

/-- What a call came to. -/
structure Made (α : Type) where
  result : Outcome α
  /-- The requests that were sent. -/
  sent : List Request
  /-- The answers that were not taken. -/
  left : List Answer

/-- Makes a call that meets the given answers; a request that meets none finds no server. -/
def make (answers : List Answer) : Call α → Made α
  | .done result => ⟨result, [], answers⟩
  | .send request receive =>
    ⟨(Call.send request receive).result (answers.head?.getD .refused), [request], answers.tail⟩

/-- Whether a call sends a request or not, its result is the one that it has where its request meets the first
answer. -/
theorem result_make (answers : List Answer) (call : Call α) :
    (call.make answers).result = call.result (answers.head?.getD .refused) := by
  cases call <;> rfl

/-- **What a call that checks first comes to**, given the answers that it meets. -/
structure ChecksFirst (misused : Prop) (answers : List Answer) (made : Made α) : Prop where
  /-- It sends at most one request, and takes no answer without one. -/
  once : made.sent = [] ∧ made.left = answers ∨ ∃ request, made.sent = [request] ∧ made.left = answers.tail
  /-- A failure that is found by looking is returned before anything is sent. -/
  upfront : ∀ e, made.result = .error e → e.isUpfront = true → made.sent = [] ∧ made.left = answers
  /-- It is refused as misused exactly if it is. -/
  refused : (∃ e, made.result = .error e ∧ e.isInvariantViolation = true) ↔ misused

/-- **A checked call checks first.** -/
theorem Checked.checksFirst {call : Call α} (h : call.Checked misused) (answers : List Answer) :
    ChecksFirst misused answers (call.make answers) := by
  cases h with
  | done told => exact ⟨.inl ⟨rfl, rfl⟩, fun _ _ _ => ⟨rfl, rfl⟩, told⟩
  | @send request receive allowed late =>
    have hlate : Late ((Call.send request receive).result (answers.head?.getD .refused)) := by
      simp only [result]
      split
      · exact late _
      · exact late_error rfl
    have hupfront : ∀ e, (Call.send request receive).result (answers.head?.getD .refused) = .error e →
        e.isUpfront ≠ true := fun e he => by simp [hlate e he]
    refine ⟨.inr ⟨request, rfl, rfl⟩, fun e he hup => absurd hup (hupfront e he), ?_, fun hmisused => ?_⟩
    · rintro ⟨e, he, hviolation⟩
      exact absurd (ClientError.isUpfront_of_isInvariantViolation hviolation) (hupfront e he)
    · exact absurd hmisused allowed

end Call

/-- A step of a session makes its call, and reports the request if it arrived. -/
theorem Session.single_eq_make {α : Type} (p : Plan α) (wrap : α → StepResult) (answers : List Answer)
    (routes : Routes) :
    single p wrap answers routes
      = (⟨((p routes).1.make answers).result.map wrap,
          if (answers.head?.getD .refused).arrived then ((p routes).1.make answers).sent else []⟩, (p routes).2) := by
  have hsent : (p routes).1.request?.toList = ((p routes).1.make answers).sent := by cases (p routes).1 <;> rfl
  rw [Call.result_make, ← hsent]
  rfl

/-- A call that sends a request is checked, if what is made of the reply is no upfront failure. -/
theorem Client.checked_call {α : Type} (c : Client) (method : Method) (path : List String)
    (options : Option (List (String × String))) (body : Option Json) {receive : Reply → Outcome α}
    (h : ∀ reply, Late (receive reply)) : (c.call method path options body receive).Checked False := by
  rw [call]
  split
  · exact .send not_false h
  · exact Call.checked_error rfl

namespace Plan

variable {α β : Type} {misused also : Prop}

/-- Every call that a plan comes to is checked. -/
def Checked (misused : Prop) (p : Plan α) : Prop := ∀ routes, (p routes).1.Checked misused

theorem Checked.congr {misused' : Prop} {p : Plan α} (h : Checked misused p) (heq : misused' ↔ misused) :
    Checked misused' p := propext heq ▸ h

theorem checked_const {call : Call α} (h : call.Checked misused) : Checked misused fun routes => (call, routes) :=
  fun _ => h

theorem checked_pure {call : Call α} (h : call.Checked misused) : Checked misused (Plan.of (pure call)) := fun _ => h

/-- Checks that refuse what is wrong, and then the rest of a plan. -/
theorem checked_refuses {r : Outcome β} {f : β → Prepared (Call α)} (hr : Refuses misused r)
    (hf : ∀ b, Checked also (Plan.of (f b))) :
    Checked (misused ∨ also) (Plan.of (Prepared.of r >>= f)) := by
  intro routes
  rcases hr with ⟨hwrong, m, rfl⟩ | ⟨hright, b, rfl⟩
  · exact Call.checked_misuse (.inl hwrong) m
  · exact (hf b routes).congr (or_iff_right hright)

/-- Checks that refuse what is wrong, and then the rest of a plan that is never misused. -/
theorem checked_refuses_only {r : Outcome β} {f : β → Prepared (Call α)} (hr : Refuses misused r)
    (hf : ∀ b, Checked False (Plan.of (f b))) : Checked misused (Plan.of (Prepared.of r >>= f)) :=
  (checked_refuses hr hf).congr (or_false _).symm.to_iff

/-- A step that does not fail for a misuse, and then the rest of a plan. -/
theorem checked_of {r : Outcome β} {f : β → Prepared (Call α)}
    (hr : ∀ e, r = .error e → e.isInvariantViolation = false) (hf : ∀ b, Checked False (Plan.of (f b))) :
    Checked False (Plan.of (Prepared.of r >>= f)) := by
  intro routes
  cases r with
  | ok b => exact hf b routes
  | error e => exact Call.checked_error (hr e rfl)

/-- A plan that is guarded by its checks. -/
theorem checked_guarded {checks : Outcome Unit} {p : Plan α} (hchecks : Refuses misused checks)
    (hp : Checked also p) : Checked (misused ∨ also) (Client.guarded checks p) := by
  intro routes
  rcases hchecks with ⟨hwrong, m, rfl⟩ | ⟨hright, -, rfl⟩
  · exact Call.checked_misuse (.inl hwrong) m
  · exact (hp routes).congr (or_iff_right hright)

end Plan

namespace Routes

/-- A type has a route, or gets one. -/
def Resolves (s : Routes) (typeName : String) : Prop := ∃ found, s.resolve typeName = .ok found

/-- A type without a route was not registered, or a name of its route is blank. -/
theorem fault_of_resolve {s : Routes} {typeName : String} {e : ClientError} (h : s.resolve typeName = .error e) :
    (∃ name, e = .missingMetadata name) ∨ ∃ text, e = .invalidMetadata text := by
  have hproposal : s.propose typeName = .error e := by
    rw [resolve] at h
    split at h
    · cases h
    · cases hproposal : s.propose typeName with
      | ok route =>
        rw [hproposal] at h
        cases h
      | error e' => exact congrArg Except.error (Except.error.inj (hproposal ▸ h))
  rw [propose] at hproposal
  split at hproposal
  · simp only [Registration.route] at hproposal
    split_ifs at hproposal <;> exact .inr ⟨_, (Except.error.inj hproposal).symm⟩
  · exact .inl ⟨_, (Except.error.inj hproposal).symm⟩

theorem isUpfront_of_resolve {s : Routes} {typeName : String} {e : ClientError} (h : s.resolve typeName = .error e) :
    e.isUpfront = true ∧ e.isInvariantViolation = false := by
  rcases fault_of_resolve h with ⟨name, rfl⟩ | ⟨text, rfl⟩ <;> exact ⟨rfl, rfl⟩

variable {α : Type} {misused : Prop}

/-- A plan that goes by the route of a type is refused as misused if the type has one and what goes by it is. -/
theorem checked_require {typeName : String} {p : Plan α} {go : Route → Plan α}
    (hp : ∀ s, p s = match (require typeName).run.run s with
      | (.ok route, after) => go route after
      | (.error e, after) => (.done (.error e), after))
    (hgo : ∀ route, Plan.Checked misused (go route)) (s : Routes) :
    (p s).1.Checked (misused ∧ s.Resolves typeName) := by
  rw [hp]
  cases hresolve : s.resolve typeName with
  | ok found =>
    rw [run_require hresolve]
    exact (hgo found.1 found.2).congr (and_iff_left ⟨found, hresolve⟩)
  | error e =>
    rw [run_require_error hresolve]
    refine (Call.checked_error (isUpfront_of_resolve hresolve).2).congr (iff_false_intro ?_)
    rintro ⟨-, found, hfound⟩
    exact nomatch hresolve.symm.trans hfound

/-- A plan that goes by the route of a type, and is misused, is done with an upfront failure: the type has no route, or
what goes by it is refused. -/
theorem refused_require {typeName : String} {p : Plan α} {go : Route → Plan α}
    (hp : ∀ s, p s = match (require typeName).run.run s with
      | (.ok route, after) => go route after
      | (.error e, after) => (.done (.error e), after))
    (hgo : ∀ route, Plan.Checked misused (go route)) (hmisused : misused) (s : Routes) :
    ∃ e, (p s).1 = .done (.error e) ∧ e.isUpfront = true := by
  rw [hp]
  cases hresolve : s.resolve typeName with
  | ok found =>
    rw [run_require hresolve]
    exact (hgo found.1 found.2).refused hmisused
  | error e =>
    rw [run_require_error hresolve]
    exact ⟨e, rfl, (isUpfront_of_resolve hresolve).1⟩

/-- A route that is required, and then the rest of a plan that is never misused. -/
theorem checked_require_bind {typeName : String} {f : Route → Prepared (Call α)}
    (hf : ∀ route, Plan.Checked False (Plan.of (f route))) :
    Plan.Checked False (Plan.of (require typeName >>= f)) := by
  have hplan : ∀ s, Plan.of (require typeName >>= f) s = match (require typeName).run.run s with
      | (.ok route, after) => Plan.of (f route) after
      | (.error e, after) => (.done (.error e), after) := by
    intro s
    rw [Plan.of, Prepared.run_bind]
    rcases (require typeName).run.run s with ⟨_ | _, _⟩ <;> rfl
  exact fun s => (checked_require hplan hf s).congr (false_and _).symm.to_iff

end Routes

end DocClient
