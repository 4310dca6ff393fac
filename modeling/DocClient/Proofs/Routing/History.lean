/-
# What a history of registrations and resolutions comes to

Registrations and resolutions of any number of types come in any order, and some of them fail. What the next call for a
type returns is a matter of the earlier calls for that type that went through, and of nothing else
(`Routes.standing_of_history`):

| of the earlier calls for the type went through | a registration | a resolution |
| --- | --- | --- |
| none | goes through | fails: nothing is registered |
| registrations | goes through | the route that the last of them gives, unless a name is blank |
| a resolution | fails, and changes nothing | the route that it returned |
-/

import DocClient.Proofs.Outcome
import DocClient.Routing

namespace DocClient

/-- A call of a history. -/
inductive RouteCall where
  | register (T : TypeTag) (r : Registration)
  | resolve (T : TypeTag)
deriving DecidableEq, Repr

/-- The calls of a history with what they returned: a resolution that went through a route, a registration nothing. -/
abbrev RouteRecord := List (RouteCall × Outcome (Option Route))

namespace RouteCall

/-- What tells the type of a call apart from others. -/
def key : RouteCall → String
  | .register T _ => T.key
  | .resolve T => T.key

/-- What a call returns, and the routes after it; a call that fails leaves them as they are. -/
def run (s : Routes) : RouteCall → Outcome (Option Route) × Routes
  | .register T r =>
    match s.register T.name r T.key with
    | .ok after => (.ok none, after)
    | .error e => (.error e, s)
  | .resolve T =>
    match s.resolve T.name T.key with
    | .ok (route, after) => (.ok (some route), after)
    | .error e => (.error e, s)

/-- **What a call may come to.** -/
inductive Runs (s : Routes) : RouteCall → Outcome (Option Route) → Routes → Prop
  | enrolled {T : TypeTag} {r : Registration} (unsettled : s.settled? T.key = none) :
    Runs s (.register T r) (.ok none) (s.enroll T.key r)
  | refused {T : TypeTag} {r : Registration} {route : Route} (settled : s.settled? T.key = some route) :
    Runs s (.register T r) (.error (RouteFault.alreadySettled T.name).toError) s
  | found {T : TypeTag} {route : Route} (settled : s.settled? T.key = some route) :
    Runs s (.resolve T) (.ok (some route)) s
  | given {T : TypeTag} {r : Registration} {route : Route} (unsettled : s.settled? T.key = none)
    (registered : s.registered.get? T.key = some r) (gives : r.route s.naming T.name = .ok route) :
    Runs s (.resolve T) (.ok (some route)) { s with settled := s.settled.insert T.key route }
  | blank {T : TypeTag} {r : Registration} {e : ClientError} (unsettled : s.settled? T.key = none)
    (registered : s.registered.get? T.key = some r) (fails : r.route s.naming T.name = .error e) :
    Runs s (.resolve T) (.error e) s
  | missing {T : TypeTag} (unsettled : s.settled? T.key = none) (unregistered : s.registered.get? T.key = none) :
    Runs s (.resolve T) (.error (.missingMetadata T.name)) s

theorem run_register (s : Routes) (T : TypeTag) (r : Registration) :
    (register T r).run s = match s.settled? T.key with
      | some _ => (.error (RouteFault.alreadySettled T.name).toError, s)
      | none => (.ok none, s.enroll T.key r) := by
  cases hsettled : s.settled? T.key <;> simp [run, Routes.register, Routes.isSettled, hsettled]

theorem run_resolve (s : Routes) (T : TypeTag) :
    (resolve T).run s = match s.settled? T.key with
      | some route => (.ok (some route), s)
      | none => match s.registered.get? T.key with
        | none => (.error (.missingMetadata T.name), s)
        | some r => match r.route s.naming T.name with
          | .ok route => (.ok (some route), { s with settled := s.settled.insert T.key route })
          | .error e => (.error e, s) := by
  cases hsettled : s.settled? T.key with
  | some route => simp [run, Routes.resolve, hsettled]
  | none =>
    cases hregistered : s.registered.get? T.key with
    | none => simp [run, Routes.resolve, Routes.propose, hsettled, hregistered]
    | some r =>
      cases hroute : r.route s.naming T.name <;>
        simp [run, Routes.resolve, Routes.propose, Routes.settle, hsettled, hregistered, hroute]

/-- A registered type that is not settled is resolved to what its registration gives. -/
theorem result_resolve {s : Routes} {T : TypeTag} {r : Registration} (hsettled : s.settled? T.key = none)
    (hregistered : s.registered.get? T.key = some r) :
    ((resolve T).run s).1 = (r.route s.naming T.name).map some := by
  rw [run_resolve, hsettled, hregistered]
  cases hroute : r.route s.naming T.name <;> simp [hroute]

theorem runs_run (s : Routes) (call : RouteCall) : Runs s call (call.run s).1 (call.run s).2 := by
  cases call with
  | register T r =>
    rw [run_register]
    split
    · exact .refused ‹_›
    · exact .enrolled ‹_›
  | resolve T =>
    rw [run_resolve]
    split
    · exact .found ‹_›
    · split
      · exact .missing ‹_› ‹_›
      · split
        · exact .given ‹_› ‹_› ‹_›
        · exact .blank ‹_› ‹_› ‹_›

/-- The registration of a type that went through, if the call is one. -/
def registered? (key : String) : RouteCall × Outcome (Option Route) → Option Registration
  | (.register T r, .ok _) => if T.key = key then some r else none
  | _ => none

/-- The route that a type was resolved to, if the call is a resolution of it that went through. -/
def resolved? (key : String) : RouteCall × Outcome (Option Route) → Option Route
  | (.resolve T, .ok route) => if T.key = key then route else none
  | _ => none

end RouteCall

namespace RouteRecord

/-- The registrations of a type that went through, in order. -/
def registrations (key : String) (past : RouteRecord) : List Registration := past.filterMap (RouteCall.registered? key)

/-- The routes that a type was resolved to, in order. -/
def resolutions (key : String) (past : RouteRecord) : List Route := past.filterMap (RouteCall.resolved? key)

end RouteRecord

namespace Registration

/-- The database that a registration gives to a type: the one that it names, or else the shared one, or else one named
after the type. -/
def databaseFor (naming : DatabaseNaming) (typeName : String) (r : Registration) : DatabaseName :=
  match r.database, naming with
  | some database, _ => database
  | none, .predefined database => database
  | none, .perType => ⟨Convention.snakeCase typeName⟩

/-- The class that a registration gives to a type: the one that it names, or else the name of the type. -/
def classFor (typeName : String) (r : Registration) : ClassName :=
  match r.className with
  | some className => className
  | none => ⟨typeName⟩

/-- A registration gives a database and a class unless one of them is blank. -/
theorem route_eq (naming : DatabaseNaming) (typeName : String) (r : Registration) :
    r.route naming typeName
      = if (r.databaseFor naming typeName).isBlank then
          .error (.invalidMetadata ("database name is blank for " ++ typeName))
        else if (r.classFor typeName).isBlank then .error (.invalidMetadata ("class name is blank for " ++ typeName))
        else .ok ⟨r.databaseFor naming typeName, r.classFor typeName⟩ := by
  obtain ⟨database, className⟩ := r
  cases database <;> cases className <;> cases naming <;> rfl

theorem route_ne_missingMetadata (naming : DatabaseNaming) (typeName : String) (r : Registration) :
    r.route naming typeName ≠ .error (.missingMetadata typeName) := by
  rw [route_eq]
  split
  · simp
  · split <;> simp

end Registration

namespace Routes

open RouteRecord

/-- The routes after some calls. -/
def replay (s : Routes) (calls : List RouteCall) : Routes := calls.foldl (fun s call => (call.run s).2) s

/-- Some calls with what they return. -/
def record (s : Routes) : List RouteCall → RouteRecord
  | [] => []
  | call :: rest => (call, (call.run s).1) :: record (call.run s).2 rest

/-- The routes are those that a record of calls leaves for a type. -/
structure Agrees (key : String) (past : RouteRecord) (s : Routes) : Prop where
  settled_iff : ∀ route, s.settled? key = some route ↔ route ∈ resolutions key past
  registered_eq : s.registered.get? key = (registrations key past).getLast?
  /-- Nothing is resolved that is not registered. -/
  registered_of_settled : ∀ route ∈ resolutions key past, registrations key past ≠ []

variable {key : String} {past : RouteRecord} {s : Routes}

theorem Agrees.resolutions_eq_nil (h : Agrees key past s) (hs : s.settled? key = none) : resolutions key past = [] := by
  refine List.eq_nil_iff_forall_not_mem.2 fun route hroute => ?_
  rw [← h.settled_iff, hs] at hroute
  exact nomatch hroute

theorem Agrees.settled?_eq_none (h : Agrees key past s) (hnil : resolutions key past = []) : s.settled? key = none := by
  refine Option.eq_none_iff_forall_ne_some.2 fun route hroute => ?_
  rw [h.settled_iff, hnil] at hroute
  exact absurd hroute List.not_mem_nil

/-- A call that neither registers nor resolves the type leaves its routes and its part of the record. -/
theorem Agrees.skip (h : Agrees key past s) {entry : RouteCall × Outcome (Option Route)} {after : Routes}
    (hregistered : RouteCall.registered? key entry = none) (hresolved : RouteCall.resolved? key entry = none)
    (hsettled? : after.settled? key = s.settled? key) (hget : after.registered.get? key = s.registered.get? key) :
    Agrees key (past ++ [entry]) after := by
  have hregistrations : registrations key (past ++ [entry]) = registrations key past := by
    simp [registrations, hregistered]
  have hresolutions : resolutions key (past ++ [entry]) = resolutions key past := by
    simp [resolutions, hresolved]
  exact ⟨by rw [hsettled?, hresolutions]; exact h.settled_iff, by rw [hget, hregistrations]; exact h.registered_eq,
    by rw [hregistrations, hresolutions]; exact h.registered_of_settled⟩

/-- A type that was resolved is settled on the route that was returned. -/
theorem Agrees.resolve (h : Agrees key past s) {T : TypeTag} (hkey : T.key = key) {route : Route} {after : Routes}
    (hget : after.registered.get? key = s.registered.get? key) (hregistered : registrations key past ≠ [])
    (hsettled : after.settled? key = some route) (hbefore : ∀ other ∈ resolutions key past, other = route) :
    Agrees key (past ++ [(.resolve T, .ok (some route))]) after := by
  have hregistrations : registrations key (past ++ [(.resolve T, .ok (some route))]) = registrations key past := by
    simp [registrations, RouteCall.registered?]
  have hresolutions : resolutions key (past ++ [(.resolve T, .ok (some route))]) = resolutions key past ++ [route] := by
    simp [resolutions, RouteCall.resolved?, hkey]
  refine ⟨fun other => ?_, ?_, fun _ _ => ?_⟩
  · rw [hsettled, hresolutions, Option.some.injEq, List.mem_append, List.mem_singleton]
    exact ⟨fun heq => .inr heq.symm, fun hmem => (hmem.elim (hbefore other) id).symm⟩
  · rw [hget, hregistrations, h.registered_eq]
  · rw [hregistrations]
    exact hregistered

/-- **One call keeps the routes in agreement with the record.** -/
theorem Agrees.call (h : Agrees key past s) {call : RouteCall} {result : Outcome (Option Route)} {after : Routes}
    (hruns : call.Runs s result after) : Agrees key (past ++ [(call, result)]) after := by
  cases hruns with
  | refused settled => exact h.skip rfl rfl rfl rfl
  | blank unsettled registered fails => exact h.skip rfl rfl rfl rfl
  | missing unsettled unregistered => exact h.skip rfl rfl rfl rfl
  | @enrolled T r unsettled =>
    by_cases hkey : T.key = key
    · subst hkey
      have hnil := h.resolutions_eq_nil unsettled
      have hregistrations : registrations T.key (past ++ [(.register T r, .ok none)])
          = registrations T.key past ++ [r] := by
        simp [registrations, RouteCall.registered?]
      have hresolutions : resolutions T.key (past ++ [(.register T r, .ok none)]) = [] := by
        simpa [resolutions, RouteCall.resolved?] using hnil
      refine ⟨fun route => ?_, ?_, ?_⟩
      · rw [hresolutions, ← hnil]
        exact h.settled_iff route
      · rw [registered_enroll, if_pos rfl, hregistrations, List.getLast?_concat]
      · rw [hresolutions]
        exact fun route hroute => absurd hroute List.not_mem_nil
    · refine h.skip (by simp [RouteCall.registered?, hkey]) rfl rfl ?_
      rw [registered_enroll, if_neg (Ne.symm hkey)]
  | @found T route settled =>
    by_cases hkey : T.key = key
    · subst hkey
      refine h.resolve rfl rfl (h.registered_of_settled route ((h.settled_iff route).1 settled)) settled ?_
      intro other hother
      exact Option.some.inj (((h.settled_iff other).2 hother).symm.trans settled)
    · exact h.skip rfl (by simp [RouteCall.resolved?, hkey]) rfl rfl
  | @given T r route unsettled registered gives =>
    by_cases hkey : T.key = key
    · subst hkey
      have hregistered : registrations T.key past ≠ [] := by
        intro hnil
        rw [h.registered_eq, hnil] at registered
        exact nomatch registered
      refine h.resolve rfl rfl hregistered (by simp [settled?, Table.get?_insert]) ?_
      rw [h.resolutions_eq_nil unsettled]
      exact fun other hother => absurd hother List.not_mem_nil
    · refine h.skip rfl (by simp [RouteCall.resolved?, hkey]) ?_ rfl
      simp [settled?, Table.get?_insert, Ne.symm hkey]

/-- **Some calls keep the routes in agreement with the record.** -/
theorem Agrees.replay (h : Agrees key past s) (calls : List RouteCall) :
    Agrees key (past ++ s.record calls) (s.replay calls) := by
  induction calls generalizing past s with
  | nil => simpa [Routes.replay, record] using h
  | cons call rest ih => simpa [Routes.replay, record] using ih (h.call (call.runs_run s))

theorem agrees_start (naming : DatabaseNaming) (key : String) : Agrees key [] { naming } :=
  ⟨fun _ => by simp [settled?, Table.get?, resolutions], rfl, fun _ hroute => absurd hroute List.not_mem_nil⟩

theorem naming_of_runs {call : RouteCall} {result : Outcome (Option Route)} {after : Routes}
    (hruns : call.Runs s result after) : after.naming = s.naming := by
  cases hruns <;> rfl

theorem naming_replay (s : Routes) (calls : List RouteCall) : (s.replay calls).naming = s.naming := by
  induction calls generalizing s with
  | nil => rfl
  | cons call rest ih => exact (ih _).trans (naming_of_runs (call.runs_run s))

/-- Two states of the routes are the same for a type. -/
structure SameFor (key : String) (s t : Routes) : Prop where
  naming : s.naming = t.naming
  settled : s.settled? key = t.settled? key
  registered : s.registered.get? key = t.registered.get? key

/-- A call for the type returns the same where the routes are the same for it, and leaves them the same for it. -/
theorem SameFor.run {s t : Routes} {call : RouteCall} (h : SameFor call.key s t) :
    (call.run s).1 = (call.run t).1 ∧ SameFor call.key (call.run s).2 (call.run t).2 := by
  obtain ⟨hnaming, hsettled, hregistered⟩ := h
  cases call with
  | register T r =>
    simp only [RouteCall.key] at hsettled hregistered ⊢
    rw [RouteCall.run_register, RouteCall.run_register, ← hsettled]
    split
    · exact ⟨rfl, hnaming, hsettled, hregistered⟩
    · exact ⟨rfl, hnaming, hsettled, by rw [registered_enroll, registered_enroll, hregistered]⟩
  | resolve T =>
    simp only [RouteCall.key] at hsettled hregistered ⊢
    rw [RouteCall.run_resolve, RouteCall.run_resolve, ← hsettled, ← hregistered, ← hnaming]
    split
    · exact ⟨rfl, hnaming, hsettled, hregistered⟩
    · split
      · exact ⟨rfl, hnaming, hsettled, hregistered⟩
      · split
        · exact ⟨rfl, rfl, by simp [settled?, Table.get?_insert], hregistered⟩
        · exact ⟨rfl, hnaming, hsettled, hregistered⟩

/-- A call for another type leaves the routes the same. -/
theorem sameFor_of_runs {call : RouteCall} {result : Outcome (Option Route)} {after : Routes} (h : call.key ≠ key)
    (hruns : call.Runs s result after) : SameFor key after s := by
  cases hruns with
  | @enrolled T r unsettled =>
    have hne : key ≠ T.key := Ne.symm h
    exact ⟨rfl, rfl, by rw [registered_enroll, if_neg hne]⟩
  | @given T r route unsettled registered gives =>
    have hne : key ≠ T.key := Ne.symm h
    exact ⟨rfl, by simp [settled?, Table.get?_insert, hne], rfl⟩
  | refused settled => exact ⟨rfl, rfl, rfl⟩
  | found settled => exact ⟨rfl, rfl, rfl⟩
  | blank unsettled registered fails => exact ⟨rfl, rfl, rfl⟩
  | missing unsettled unregistered => exact ⟨rfl, rfl, rfl⟩

/-- **What the calls for a type return is a matter of these calls alone.** -/
theorem record_filter {key : String} {s t : Routes} (h : SameFor key s t) (calls : List RouteCall) :
    (s.record calls).filter (fun entry => entry.1.key = key) = t.record (calls.filter fun call => call.key = key) := by
  induction calls generalizing s t with
  | nil => rfl
  | cons call rest ih =>
    by_cases hkey : call.key = key
    · subst hkey
      obtain ⟨hresult, hsame⟩ := h.run
      simp [record, hresult, ih hsame]
    · have hleft := sameFor_of_runs hkey (call.runs_run s)
      have hsame : SameFor key (call.run s).2 t :=
        ⟨hleft.naming.trans h.naming, hleft.settled.trans h.settled, hleft.registered.trans h.registered⟩
      simp [record, hkey, ih hsame]

/-- **Where a type stands after some calls**, given what they returned. -/
structure Standing (naming : DatabaseNaming) (T : TypeTag) (past : RouteRecord) (s : Routes) : Prop where
  /-- Metadata are missing exactly if no registration went through. -/
  missing : ((RouteCall.resolve T).run s).1 = .error (.missingMetadata T.name) ↔ registrations T.key past = []
  /-- A type that was resolved stays as it is. -/
  settled : ∀ route ∈ resolutions T.key past, (RouteCall.resolve T).run s = (.ok (some route), s)
    ∧ ∀ r, (RouteCall.register T r).run s
        = (.error (.invalidMetadata (T.name ++ " is already resolved; register entity types at startup")), s)
  /-- Before that, the last registration says what a resolution comes to. -/
  given : resolutions T.key past = [] → ∀ r, (registrations T.key past).getLast? = some r →
    ((RouteCall.resolve T).run s).1
      = if (r.databaseFor naming T.name).isBlank then
          .error (.invalidMetadata ("database name is blank for " ++ T.name))
        else if (r.classFor T.name).isBlank then .error (.invalidMetadata ("class name is blank for " ++ T.name))
        else .ok (some ⟨r.databaseFor naming T.name, r.classFor T.name⟩)
  /-- Before that, the type can be registered. -/
  unsettled : resolutions T.key past = [] → ∀ r, ((RouteCall.register T r).run s).1 = .ok none
  /-- A resolution that fails changes nothing. -/
  failed : ∀ e, ((RouteCall.resolve T).run s).1 = .error e → ((RouteCall.resolve T).run s).2 = s

/-- **Routes that agree with a record are where it says.** -/
theorem Agrees.standing {T : TypeTag} {past : RouteRecord} {s : Routes} (h : Agrees T.key past s) :
    Standing s.naming T past s := by
  constructor
  case missing =>
    cases hsettled : s.settled? T.key with
    | some route =>
      have hregistered := h.registered_of_settled route ((h.settled_iff route).1 hsettled)
      rw [RouteCall.run_resolve, hsettled]
      simp [hregistered]
    | none =>
      have hlast := h.registered_eq
      cases hregistered : s.registered.get? T.key with
      | none =>
        rw [hregistered, eq_comm, List.getLast?_eq_none_iff] at hlast
        rw [RouteCall.run_resolve, hsettled, hregistered]
        simp [hlast]
      | some r =>
        have hne : registrations T.key past ≠ [] := by
          intro hnil
          rw [hregistered, hnil] at hlast
          exact nomatch hlast
        have hmissing := r.route_ne_missingMetadata s.naming T.name
        rw [RouteCall.result_resolve hsettled hregistered]
        cases hroute : r.route s.naming T.name <;> simp_all
  case settled =>
    intro route hroute
    have hsettled := (h.settled_iff route).2 hroute
    refine ⟨by rw [RouteCall.run_resolve, hsettled], fun r => ?_⟩
    rw [RouteCall.run_register, hsettled]
    rfl
  case given =>
    intro hnil r hr
    rw [← h.registered_eq] at hr
    rw [RouteCall.result_resolve (h.settled?_eq_none hnil) hr, r.route_eq]
    split
    · rfl
    · split <;> rfl
  case unsettled =>
    intro hnil r
    rw [RouteCall.run_register, h.settled?_eq_none hnil]
  case failed =>
    intro e he
    have hruns := (RouteCall.resolve T).runs_run s
    rw [he] at hruns
    generalize ((RouteCall.resolve T).run s).2 = after at hruns
    cases hruns <;> rfl

/-- **Every history of registrations and resolutions** leaves each type where the calls for it that went through say,
and what the calls for a type return is what they return without the calls for other types. -/
theorem standing_of_history (naming : DatabaseNaming) (calls : List RouteCall) :
    (∀ T : TypeTag, Standing naming T (record { naming } calls) (replay { naming } calls))
    ∧ ∀ key, (record { naming } calls).filter (fun entry => entry.1.key = key)
        = record { naming } (calls.filter fun call => call.key = key) := by
  refine ⟨fun T => ?_, fun key => record_filter ⟨rfl, rfl, rfl⟩ calls⟩
  have hagrees : Agrees T.key (record { naming } calls) (replay { naming } calls) :=
    (agrees_start naming T.key).replay calls
  have hstanding := hagrees.standing
  rwa [naming_replay] at hstanding

/-- A blank database leaves a type open; another type of the same name is as it was. -/
example : (record { naming := .perType }
      [.register ⟨"first", "Note"⟩ { database := some ⟨" "⟩ }, .resolve ⟨"first", "Note"⟩,
        .register ⟨"first", "Note"⟩ {}, .resolve ⟨"first", "Note"⟩, .resolve ⟨"second", "Note"⟩]).map Prod.snd
    = [.ok none, .error (.invalidMetadata "database name is blank for Note"), .ok none,
        .ok (some ⟨⟨"note"⟩, ⟨"Note"⟩⟩), .error (.missingMetadata "Note")] := by
  rfl

end Routes
end DocClient
