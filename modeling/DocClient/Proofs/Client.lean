/-
# Preparing a call and sending it

A preparation runs on the routes that there are and leaves routes behind; the call that it makes sends one request
(`Client.call_eq_send`). What each step of a preparation comes to:

| step | comes to | routes after it |
| --- | --- | --- |
| an outcome (`Prepared.run_of`) | the outcome | the same |
| a type that is resolved (`Routes.run_require`) | its route | those of the resolution |
| one step and then another (`Prepared.run_bind`) | what the other comes to if the first succeeds | those of the last |
-/

import DocClient.Proofs.Http.Query
import DocClient.Proofs.Outcome

namespace DocClient
namespace Prepared

variable {α β : Type} {routes : Routes}

@[simp] theorem run_pure (a : α) : (pure a : Prepared α).run.run routes = (.ok a, routes) := rfl

@[simp] theorem run_of (r : Outcome α) : (of r).run.run routes = (r, routes) := rfl

/-- A preparation goes on where its first step ended. -/
theorem run_bind (p : Prepared α) (f : α → Prepared β) :
    (p >>= f).run.run routes
      = match p.run.run routes with
        | (.ok a, routes) => (f a).run.run routes
        | (.error e, routes) => (.error e, routes) := by
  have hrun : (p >>= f).run = (p.run >>= ExceptT.bindCont f : StateM Routes (Outcome β)) := rfl
  rw [hrun, StateT.run_bind]
  change (ExceptT.bindCont f (p.run.run routes).1).run (p.run.run routes).2 = _
  rcases p.run.run routes with ⟨_ | _, _⟩ <;> rfl

/-- Every call that a preparation may come to is of a kind. -/
def Makes (kind : Call α → Prop) (p : Prepared (Call α)) : Prop :=
  ∀ routes after call, p.run.run routes = (.ok call, after) → kind call

theorem makes_pure {kind : Call α → Prop} {call : Call α} (h : kind call) : Makes kind (pure call) := by
  intro routes after made hmade
  obtain ⟨heq, -⟩ := Prod.mk.inj hmade
  exact Except.ok.inj heq ▸ h

/-- What a preparation comes to is a matter of its last step. -/
theorem makes_bind {kind : Call α → Prop} {p : Prepared β} {f : β → Prepared (Call α)} (h : ∀ b, Makes kind (f b)) :
    Makes kind (p >>= f) := by
  intro routes after call hcall
  rw [run_bind] at hcall
  split at hcall
  · exact h _ _ _ _ hcall
  · exact nomatch (Prod.mk.inj hcall).1

end Prepared

/-- **A call is of a kind** if the failures are, and every call that the preparation may come to. -/
theorem Plan.of_makes {α : Type} {kind : Call α → Prop} {p : Prepared (Call α)} (hfailed : ∀ e, kind (.done (.error e)))
    (h : p.Makes kind) (routes : Routes) : kind (Plan.of p routes).1 := by
  rw [Plan.of]
  split
  · rename_i hcall
    exact h _ _ _ hcall
  · exact hfailed _

/-- A type that is resolved has its route. -/
theorem Routes.run_require {routes after : Routes} {typeName : String} {route : Route}
    (h : routes.resolve typeName = .ok (route, after)) :
    (Routes.require typeName).run.run routes = (.ok route, after) := by
  have hget : (get : Prepared Routes).run.run routes = (.ok routes, routes) := rfl
  simp only [Routes.require, Prepared.run_bind, hget, h]
  rfl

/-- A type without a route fails, and no route is settled. -/
theorem Routes.run_require_error {routes : Routes} {typeName : String} {e : ClientError}
    (h : routes.resolve typeName = .error e) : (Routes.require typeName).run.run routes = (.error e, routes) := by
  have hget : (get : Prepared Routes).run.run routes = (.ok routes, routes) := rfl
  simp only [Routes.require, Prepared.run_bind, hget, h]
  rfl

/-- A type that was resolved is settled. -/
theorem Routes.resolve_after {routes after : Routes} {typeName : String} {route : Route}
    (h : routes.resolve typeName = .ok (route, after)) : after.resolve typeName = .ok (route, after) := by
  have hsettled : after.settled? typeName = some route := by
    rw [resolve] at h
    split at h
    · rename_i hthere
      obtain ⟨rfl, rfl⟩ := Prod.mk.inj (Except.ok.inj h)
      exact hthere
    · obtain ⟨proposal, -, hsettle⟩ := Outcome.map_eq_ok.1 h
      have hsettled := routes.settled?_settle typeName proposal
      rwa [hsettle] at hsettled
  simp [resolve, hsettled]

@[simp] theorem forbid_true (m : Misuse) : forbid true m = .error (.misuse m) := rfl

@[simp] theorem forbid_false (m : Misuse) : forbid false m = .ok () := rfl

/-- What a call sends does not depend on what it makes of the reply. -/
theorem Client.request?_call {α : Type} (c : Client) (method : Method) (path : List String)
    (options : Option (List (String × String))) (body : Option Json) (receive : Reply → Outcome α) :
    (c.call method path options body receive).request? = c.request? method path options body := by
  rw [call]
  cases c.request? method path options body <;> rfl

/-- **A call sends one request**, for its path and with its options, where the path is one of a URL. -/
theorem Client.call_eq_send {α : Type} {c : Client} {path : List String}
    (hlocated : (Url.parse? (c.locate path)).isSome) (method : Method) (pairs : List (String × String))
    (body : Option Json) (receive : Reply → Outcome α) :
    ∃ r, c.call method path (some pairs) body receive = .send r receive
      ∧ r.method = method ∧ r.body = body ∧ r.place = c.place path
      ∧ ∀ name value, pairs.reverse.lookup name = some value → r.option? name = some value := by
  obtain ⟨u, hu⟩ := Option.isSome_iff_exists.1 hlocated
  have hr : c.request? method path (some pairs) body = some ((u.addPairs pairs).request method c.user? body) := by
    rw [request?, hu]
    rfl
  obtain ⟨hmethod, hbody, hplace, -⟩ := request?_eq_some hr
  exact ⟨_, by rw [call, hr], hmethod, hbody, hplace, fun _ _ hv => option?_of_request? hr hv⟩

/-- A call that, if it sends a request, sends it by a given method and takes the reply in a given way. -/
inductive Call.Takes {α : Type} (method : Method) (receive : Reply → Outcome α) : Call α → Prop where
  | done (result : Outcome α) : Takes method receive (.done result)
  | sent (request : Request) (asks : request.method = method) : Takes method receive (.send request receive)

theorem Call.Takes.andThen {α β : Type} {method : Method} {receive : Reply → Outcome α} {call : Call α}
    (h : call.Takes method receive) (f : α → Outcome β) :
    (call.andThen f).Takes method fun reply => (receive reply).bind f := by
  cases h with
  | done result => exact .done _
  | sent request asks => exact .sent _ asks

/-- **What comes of a call that was sent is what it takes the reply for.** -/
theorem Call.Takes.result_of_sent {α : Type} {method : Method} {receive : Reply → Outcome α} {call : Call α}
    (h : call.Takes method receive) {r : Request} (hsent : call.request? = some r) {answer : Answer} {reply : Reply}
    (hreply : answer.reply? = some reply) : r.method = method ∧ call.result answer = receive reply := by
  cases h with
  | done result => exact nomatch hsent
  | sent request asks =>
    obtain rfl := Option.some.inj hsent
    exact ⟨asks, by rw [Call.result, hreply]⟩

theorem Client.takes_call {α : Type} {c : Client} (method : Method) (path : List String)
    (options : Option (List (String × String))) (body : Option Json) (receive : Reply → Outcome α) :
    (c.call method path options body receive).Takes method receive := by
  rw [call]
  cases hrequest : c.request? method path options body with
  | none => exact .done _
  | some request => exact .sent request (sent_of_request? hrequest).1

/-- A client can be made with settings that can be used. -/
theorem Client.ofSettings_eq_ok {s : Settings} (h : s.refusal? = none) : ofSettings s = .ok ⟨s, h⟩ := by
  rw [ofSettings]
  split
  · rfl
  · rename_i text hrefused
    cases h.symm.trans hrefused

/-- A client of the standard settings. -/
def Client.sample : Client := ⟨.standard, by decide⟩

/-- Routes where the type of the entities with a label has its own. -/
def Routes.sample : Routes := { naming := .perType, settled := [("TestEntity", ⟨⟨"db"⟩, ⟨"Test"⟩⟩)] }

end DocClient
