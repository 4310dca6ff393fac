/-
# Resolutions that race agree

Any number of callers register and resolve one entity type at the same time, and their sections come one after another
in any order. The routes that two resolutions work out may differ, since a registration may come between them, but only
one of the two is settled, and both return that one (`Race.resolutions_agree`):

| at any point of the race | is |
| --- | --- |
| the settled route, if there is one | the one that a registration gives which was in place before |
| the settled route later on | the same |
| what a resolution that went through has returned | the settled route |

An operation whose sections follow one another with nothing in between is the operation on routes
(`RouteTask.register_alone`, `RouteTask.resolve_alone`).
-/

import DocClient.Proofs.Outcome
import DocClient.Routing.Concurrent

namespace DocClient

namespace RouteTask

variable {T : TypeTag} {s after : Routes} {task next : RouteTask}

/-- **What a section may come to.** -/
inductive Steps (T : TypeTag) (s : Routes) : RouteTask → RouteTask → Routes → Prop
  | refused {r : Registration} {route : Route} (settled : s.settled? T.key = some route) :
    Steps T s (.register r) (.registered (.error (RouteFault.alreadySettled T.name).toError)) s
  | admitted {r : Registration} (unsettled : s.settled? T.key = none) : Steps T s (.register r) (.enroll r) s
  | enrolled {r : Registration} : Steps T s (.enroll r) (.registered (.ok ())) (s.enroll T.key r)
  | found {route : Route} (settled : s.settled? T.key = some route) : Steps T s .resolve (.resolved (.ok route)) s
  | sought (unsettled : s.settled? T.key = none) : Steps T s .resolve .propose s
  | given {r : Registration} {route : Route} (registered : s.registered.get? T.key = some r)
    (gives : r.route s.naming T.name = .ok route) : Steps T s .propose (.settle route) s
  | failed {e : ClientError} (fails : s.propose T.name T.key = .error e) :
    Steps T s .propose (.resolved (.error e)) s
  | late {route there : Route} (settled : s.settled? T.key = some there) :
    Steps T s (.settle route) (.resolved (.ok there)) s
  | first {route : Route} (unsettled : s.settled? T.key = none) :
    Steps T s (.settle route) (.resolved (.ok route)) { s with settled := s.settled.insert T.key route }
  | registered {result : Outcome Unit} : Steps T s (.registered result) (.registered result) s
  | resolved {result : Outcome Route} : Steps T s (.resolved result) (.resolved result) s

theorem steps_step (T : TypeTag) (s : Routes) (task : RouteTask) :
    Steps T s task (task.step T s).1 (task.step T s).2 := by
  cases task with
  | register r =>
    cases hsettled : s.settled? T.key with
    | some route =>
      simp only [step, Routes.isSettled, hsettled, Option.isSome_some, if_true]
      exact .refused hsettled
    | none =>
      simp only [step, Routes.isSettled, hsettled, Option.isSome_none, Bool.false_eq_true, if_false]
      exact .admitted hsettled
  | enroll r => exact .enrolled
  | registered result => exact .registered
  | resolve =>
    cases hsettled : s.settled? T.key with
    | some route =>
      simp only [step, hsettled]
      exact .found hsettled
    | none =>
      simp only [step, hsettled]
      exact .sought hsettled
  | propose =>
    cases hproposal : s.propose T.name T.key with
    | error e =>
      simp only [step, hproposal]
      exact .failed hproposal
    | ok route =>
      simp only [step, hproposal]
      rw [Routes.propose] at hproposal
      split at hproposal
      · exact .given ‹_› hproposal
      · exact nomatch hproposal
  | settle route =>
    cases hsettled : s.settled? T.key with
    | some there =>
      simp only [step, Routes.settle_of_settled hsettled]
      exact .late hsettled
    | none =>
      simp only [step, Routes.settle, hsettled]
      exact .first hsettled
  | resolved result => exact .resolved

/-- A route that is settled stays settled. -/
theorem Steps.settled?_eq_some (h : Steps T s task next after) {route : Route}
    (hroute : s.settled? T.key = some route) : after.settled? T.key = some route := by
  cases h with
  | first unsettled => exact absurd (unsettled.symm.trans hroute) (Option.some_ne_none route).symm
  | _ => exact hroute

theorem Steps.naming_eq (h : Steps T s task next after) : after.naming = s.naming := by
  cases h <;> rfl

/-- The registration that an operation is still to put in place. -/
def pending? : RouteTask → Option Registration
  | .register r | .enroll r => some r
  | _ => none

theorem Steps.pending?_eq (h : Steps T s task next after) : next.pending? = none ∨ next.pending? = task.pending? := by
  cases h with
  | admitted => exact .inr rfl
  | registered | resolved => exact .inr rfl
  | _ => exact .inl rfl

/-- So many sections of an operation, with nothing in between. -/
def alone (T : TypeTag) : Nat → RouteTask × Routes → RouteTask × Routes
  | 0, state => state
  | n + 1, state => alone T n (state.1.step T state.2)

/-- The two sections of a registration register the type. -/
theorem register_alone (T : TypeTag) (s : Routes) (r : Registration) :
    alone T 2 (.register r, s)
      = match s.register T.name r T.key with
        | .ok after => (.registered (.ok ()), after)
        | .error e => (.registered (.error e), s) := by
  cases hsettled : s.isSettled T.key <;> simp [alone, step, Routes.register, hsettled]

/-- The three sections of a resolution resolve the type. -/
theorem resolve_alone (T : TypeTag) (s : Routes) :
    alone T 3 (.resolve, s)
      = match s.resolve T.name T.key with
        | .ok (route, after) => (.resolved (.ok route), after)
        | .error e => (.resolved (.error e), s) := by
  cases hsettled : s.settled? T.key with
  | some route => simp [alone, step, Routes.resolve, hsettled]
  | none =>
    cases hproposal : s.propose T.name T.key <;>
      simp [alone, step, Routes.resolve, Routes.settle, hsettled, hproposal]

end RouteTask

namespace Race

variable {T : TypeTag} {race : Race}

/-- The registration that a turn puts in place, if it does. -/
def enrolls? (race : Race) (turn : Nat) : Option Registration :=
  match race.tasks[turn]? with
  | some (.enroll r) => some r
  | _ => none

/-- The registrations that are put in place in some turns, in order. -/
def enrolled (T : TypeTag) : Race → List Nat → List Registration
  | _, [] => []
  | race, turn :: rest => (race.enrolls? turn).toList ++ enrolled T (race.step T turn) rest

/-- A turn takes one section of one operation, or nothing happens. -/
theorem step_cases (T : TypeTag) (race : Race) (turn : Nat) :
    (race.step T turn = race ∧ race.enrolls? turn = none)
      ∨ ∃ task next after, race.tasks[turn]? = some task ∧ task.Steps T race.routes next after
        ∧ race.step T turn = ⟨after, race.tasks.set turn next⟩ := by
  cases htask : race.tasks[turn]? with
  | none => exact .inl ⟨by simp [step, htask], by simp [enrolls?, htask]⟩
  | some task => exact .inr ⟨task, _, _, rfl, RouteTask.steps_step T race.routes task, by simp [step, htask]⟩

/-- What is settled stays settled in a turn. -/
theorem settled?_step {route : Route} (h : race.routes.settled? T.key = some route) (turn : Nat) :
    (race.step T turn).routes.settled? T.key = some route := by
  rcases step_cases T race turn with ⟨hstep, -⟩ | ⟨task, next, after, -, hsteps, hstep⟩
  · rwa [hstep]
  · rw [hstep]
    exact hsteps.settled?_eq_some h

/-- **What is settled stays settled.** -/
theorem settled?_run {route : Route} (h : race.routes.settled? T.key = some route) (turns : List Nat) :
    (race.run T turns).routes.settled? T.key = some route := by
  induction turns generalizing race with
  | nil => exact h
  | cons turn rest ih => exact ih (settled?_step h turn)

/-- The registrations that are still to be put in place. -/
def pending (race : Race) : List Registration := race.tasks.filterMap RouteTask.pending?

/-- A turn leaves no registration pending that was not pending before. -/
theorem mem_pending_of_step {turn : Nat} {r : Registration} (h : r ∈ (race.step T turn).pending) :
    r ∈ race.pending := by
  rcases step_cases T race turn with ⟨hstep, -⟩ | ⟨task, next, after, htask, hsteps, hstep⟩
  · rwa [hstep] at h
  · rw [hstep] at h
    obtain ⟨other, hother, hr⟩ := List.mem_filterMap.1 h
    rcases List.mem_or_eq_of_mem_set hother with hother | rfl
    · exact List.mem_filterMap.2 ⟨other, hother, hr⟩
    · rcases hsteps.pending?_eq with hnone | hsame
      · rw [hnone] at hr
        exact nomatch hr
      · exact List.mem_filterMap.2 ⟨task, List.mem_of_getElem? htask, hsame ▸ hr⟩

/-- Only what was pending is put in place. -/
theorem mem_pending_of_enrolled {turns : List Nat} {r : Registration} (h : r ∈ race.enrolled T turns) :
    r ∈ race.pending := by
  induction turns generalizing race with
  | nil => exact absurd h List.not_mem_nil
  | cons turn rest ih =>
    rcases List.mem_append.1 h with hnow | hlater
    · have henrolls := Option.mem_toList.1 hnow
      unfold enrolls? at henrolls
      split at henrolls
      · rename_i htask
        obtain rfl := Option.some.inj henrolls
        exact List.mem_filterMap.2 ⟨_, List.mem_of_getElem? htask, rfl⟩
      · exact nomatch henrolls
    · exact mem_pending_of_step (ih hlater)

/-- A route is the one that one of some registrations gives. -/
def Given (naming : DatabaseNaming) (T : TypeTag) (made : List Registration) (route : Route) : Prop :=
  ∃ r ∈ made, r.route naming T.name = .ok route

theorem Given.mono {naming : DatabaseNaming} {made more : List Registration} {route : Route}
    (h : Given naming T made route) (hmore : made ⊆ more) : Given naming T more route := by
  obtain ⟨r, hr, hroute⟩ := h
  exact ⟨r, hmore hr, hroute⟩

/-- What an operation has worked out so far: a route to be settled is given by a registration that was made, and a
route that was returned is settled. -/
def Backed (T : TypeTag) (made : List Registration) (s : Routes) : RouteTask → Prop
  | .settle route => Given s.naming T made route
  | .resolved (.ok route) => s.settled? T.key = some route
  | _ => True

/-- **What holds throughout a race** that began with some routes, given the registrations made until now. -/
structure Sound (T : TypeTag) (begun : Routes) (made : List Registration) (race : Race) : Prop where
  naming : race.routes.naming = begun.naming
  registered : ∀ r, race.routes.registered.get? T.key = some r → r ∈ made
  settled : ∀ route, race.routes.settled? T.key = some route →
    begun.settled? T.key = some route ∨ Given begun.naming T made route
  tasks : ∀ task ∈ race.tasks, Backed T made race.routes task

variable {begun : Routes} {made : List Registration}

/-- What an operation has worked out stays good while more registrations are made and what is settled stays. -/
theorem Backed.mono {task : RouteTask} {s after : Routes} {more : List Registration} (h : Backed T made s task)
    (hnaming : after.naming = s.naming)
    (hsettled : ∀ route, s.settled? T.key = some route → after.settled? T.key = some route) (hmore : made ⊆ more) :
    Backed T more after task := by
  unfold Backed at h ⊢
  split
  · rw [hnaming]
    exact Given.mono h hmore
  · exact hsettled _ h
  · trivial

/-- **One turn keeps a race sound.** -/
theorem Sound.step (h : Sound T begun made race) (turn : Nat) :
    Sound T begun (made ++ (race.enrolls? turn).toList) (race.step T turn) := by
  rcases step_cases T race turn with ⟨hstep, hnone⟩ | ⟨task, next, after, htask, hsteps, hstep⟩
  · rw [hstep, hnone]
    simpa using h
  have hmore : made ⊆ made ++ (race.enrolls? turn).toList := List.subset_append_left ..
  have hbacked : Backed T made race.routes task := h.tasks task (List.mem_of_getElem? htask)
  -- the operation whose turn it is, then the others
  have hnext : Backed T (made ++ (race.enrolls? turn).toList) after next := by
    cases hsteps with
    | found hsettled => exact hsettled
    | given hregistered hgives => exact ⟨_, hmore (h.registered _ hregistered), hgives⟩
    | late hsettled => exact hsettled
    | first => simp [Backed, Routes.settled?, Table.get?_insert]
    | resolved => exact hbacked.mono rfl (fun _ h => h) hmore
    | _ => trivial
  have htasks : ∀ other ∈ race.tasks.set turn next, Backed T (made ++ (race.enrolls? turn).toList) after other := by
    intro other hother
    rcases List.mem_or_eq_of_mem_set hother with hother | rfl
    · exact (h.tasks other hother).mono hsteps.naming_eq (fun _ => hsteps.settled?_eq_some) hmore
    · exact hnext
  rw [hstep]
  refine ⟨hsteps.naming_eq.trans h.naming, fun r hr => ?_, fun route hroute => ?_, htasks⟩
  · cases hsteps with
    | @enrolled put =>
      have henrolls : race.enrolls? turn = some put := by simp [enrolls?, htask]
      rw [Routes.registered_enroll, if_pos rfl] at hr
      rw [henrolls, ← Option.some.inj hr]
      simp
    | _ => exact hmore (h.registered r hr)
  · cases hsteps with
    | @first proposal =>
      obtain rfl : proposal = route := by simpa [Routes.settled?, Table.get?_insert] using hroute
      exact .inr (h.naming ▸ Given.mono hbacked hmore)
    | _ => exact (h.settled route hroute).imp id (Given.mono · hmore)

/-- **Any number of turns keeps a race sound.** -/
theorem Sound.run (h : Sound T begun made race) (turns : List Nat) :
    Sound T begun (made ++ race.enrolled T turns) (race.run T turns) := by
  induction turns generalizing made race with
  | nil => simpa [Race.run, enrolled] using h
  | cons turn rest ih => simpa [Race.run, enrolled] using ih (h.step turn)

/-- A race in which nobody has begun is sound. -/
theorem sound_start (T : TypeTag) (s : Routes) (registrations : List Registration) (resolutions : Nat) :
    Sound T s (s.registered.get? T.key).toList (Race.start s registrations resolutions) := by
  refine ⟨rfl, fun r hr => Option.mem_toList.2 hr, fun route hroute => .inl hroute, fun task htask => ?_⟩
  rcases List.mem_append.1 htask with htask | htask
  · obtain ⟨r, -, rfl⟩ := List.mem_map.1 htask
    trivial
  · obtain rfl := List.eq_of_mem_replicate htask
    trivial

theorem pending_start (s : Routes) (registrations : List Registration) (resolutions : Nat) :
    (Race.start s registrations resolutions).pending = registrations := by
  have hresolve : ∀ n, (List.replicate n RouteTask.resolve).filterMap RouteTask.pending? = [] := by
    intro n
    rw [List.filterMap_replicate_of_none rfl]
  simp [pending, Race.start, hresolve, List.filterMap_map, Function.comp_def, RouteTask.pending?]

/-- **What a race has come to**, given the routes that it began with and the registrations that were made. -/
structure Agreement (T : TypeTag) (begun : Routes) (made : List Registration) (race : Race) : Prop where
  /-- The resolutions that went through returned the same route. -/
  same : ∀ (i j : Nat) (a b : Route), race.tasks[i]? = some (.resolved (.ok a)) →
    race.tasks[j]? = some (.resolved (.ok b)) → a = b
  /-- What a resolution returned is the settled route. -/
  returned : ∀ (i : Nat) (route : Route), race.tasks[i]? = some (.resolved (.ok route)) →
    race.routes.settled? T.key = some route
  /-- A route that is settled stays, whatever comes later. -/
  stays : ∀ route, race.routes.settled? T.key = some route → ∀ later,
    (race.run T later).routes.settled? T.key = some route
  /-- A route that was not settled before is given by a registration that was made. -/
  given : ∀ route, race.routes.settled? T.key = some route → begun.settled? T.key ≠ some route →
    ∃ r ∈ made, r.route begun.naming T.name = .ok route

theorem Sound.agreement (h : Sound T begun made race) : Agreement T begun made race := by
  have hreturned : ∀ (i : Nat) (route : Route), race.tasks[i]? = some (.resolved (.ok route)) →
      race.routes.settled? T.key = some route := fun i route hi => h.tasks _ (List.mem_of_getElem? hi)
  constructor
  case same =>
    intro i j a b hi hj
    exact Option.some.inj ((hreturned i a hi).symm.trans (hreturned j b hj))
  case returned => exact hreturned
  case stays => exact fun route hroute later => settled?_run hroute later
  case given => exact fun route hroute hnew => (h.settled route hroute).resolve_left hnew

/-- **Resolutions that race agree.** Let any number of registrations and resolutions of one type take their sections in
any order, on whatever routes there were. The resolutions that have gone through returned one and the same route, which
is settled and stays so; and unless it was settled before the race it is given by a registration of the type, one that
was in place when the race began or one of those in the race. -/
theorem resolutions_agree (T : TypeTag) (s : Routes) (registrations : List Registration) (resolutions : Nat)
    (turns : List Nat) :
    Agreement T s ((s.registered.get? T.key).toList ++ (Race.start s registrations resolutions).enrolled T turns)
        ((Race.start s registrations resolutions).run T turns)
      ∧ ∀ r ∈ (Race.start s registrations resolutions).enrolled T turns, r ∈ registrations := by
  refine ⟨((sound_start T s registrations resolutions).run turns).agreement, fun r hr => ?_⟩
  rw [← pending_start s registrations resolutions]
  exact mem_pending_of_enrolled hr

/-- Both resolutions read the registration before either settles its route, and another registration comes in between:
the two work out different routes, and return the same one. -/
example : ((Race.start { naming := .perType } [{ database := some ⟨"a"⟩ }, { database := some ⟨"b"⟩ }] 2).run
      ⟨"Note", "Note"⟩ [0, 0, 1, 2, 2, 1, 3, 3, 3, 2]).tasks
    = [.registered (.ok ()), .registered (.ok ()), .resolved (.ok ⟨⟨"b"⟩, ⟨"Note"⟩⟩),
        .resolved (.ok ⟨⟨"b"⟩, ⟨"Note"⟩⟩)] := by
  rfl

end Race
end DocClient
