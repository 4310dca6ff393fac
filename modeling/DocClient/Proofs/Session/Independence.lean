/-
# Steps of a session do not interfere

A step of a session leaves nothing behind but the types that it settled, and a type that is settled has the route that
it would get later on anyway, as long as it is not registered anew. So one state of the routes may be ahead of another
(`Routes.Ahead`), and nothing that a step sends or returns tells the two apart:

| a computation on the routes (`Routes.Mild`) | |
| --- | --- |
| begun with some routes | ends with routes that are ahead of them |
| begun with routes one of which are ahead of the others | comes to the same, and ends with routes ahead alike |

Every step is one but a registration, and a registration comes to the same where its type is not one that the two states
differ in. Hence a step can be taken out of a session and the others come to what they came to with it
(`Session.run_without`).
-/

import DocClient.Proofs.Client
import DocClient.Session

namespace DocClient

namespace Routes

variable {α β : Type} {names more : String → Prop} {s t u : Routes} {name : String}

/-- **Routes that are ahead of others** are the same, but some types of the given names are settled in them that are
open in the others, each on the route that it would get there. -/
structure Ahead (names : String → Prop) (s t : Routes) : Prop where
  naming_eq : s.naming = t.naming
  registered_eq : s.registered = t.registered
  settled : ∀ name, s.settled? name = t.settled? name
    ∨ names name ∧ t.settled? name = none ∧ ∃ route, s.settled? name = some route ∧ t.propose name = .ok route

theorem Ahead.propose_eq (h : Ahead names s t) (name : String) : s.propose name = t.propose name := by
  rw [propose, propose, h.naming_eq, h.registered_eq]

theorem Ahead.refl (names : String → Prop) (s : Routes) : Ahead names s s := ⟨rfl, rfl, fun _ => .inl rfl⟩

theorem Ahead.trans (hst : Ahead names s t) (htu : Ahead names t u) : Ahead names s u := by
  refine ⟨hst.naming_eq.trans htu.naming_eq, hst.registered_eq.trans htu.registered_eq, fun name => ?_⟩
  rcases hst.settled name with hs | ⟨hname, ht, route, hs, hroute⟩
  · rw [hs]
    exact htu.settled name
  · rcases htu.settled name with hu | ⟨-, -, other, hother, -⟩
    · exact .inr ⟨hname, hu ▸ ht, route, hs, htu.propose_eq name ▸ hroute⟩
    · exact absurd (ht.symm.trans hother) (Option.some_ne_none other).symm

/-- Routes that are ahead are so by the types that are settled in them and open in the others. -/
theorem Ahead.sharp (h : Ahead names s t) :
    Ahead (fun name => t.settled? name = none ∧ (s.settled? name).isSome) s t := by
  refine ⟨h.naming_eq, h.registered_eq, fun name => ?_⟩
  rcases h.settled name with hs | ⟨-, ht, route, hs, hroute⟩
  · exact .inl hs
  · exact .inr ⟨⟨ht, Option.isSome_iff_exists.2 ⟨route, hs⟩⟩, ht, route, hs, hroute⟩

/-- A type that is settled in routes that are ahead, and open in the others, is one of the names. -/
theorem Ahead.mem_names (h : Ahead names s t) (ht : t.settled? name = none) (hs : (s.settled? name).isSome) :
    names name := by
  rcases h.settled name with heq | ⟨hname, -⟩
  · rw [heq, ht] at hs
    exact nomatch hs
  · exact hname

theorem settled?_insert (s : Routes) (name : String) (route : Route) (other : String) :
    ({ s with settled := s.settled.insert name route } : Routes).settled? other
      = if other = name then some route else s.settled? other := Table.get?_insert ..

/-- The routes with a type settled on the route that it gets. -/
theorem ahead_insert {route : Route} (hname : names name) (hs : s.settled? name = none)
    (hroute : s.propose name = .ok route) : Ahead names { s with settled := s.settled.insert name route } s := by
  refine ⟨rfl, rfl, fun other => ?_⟩
  rw [settled?_insert]
  split
  · rename_i hother
    exact .inr ⟨hother ▸ hname, hother ▸ hs, route, rfl, hother ▸ hroute⟩
  · exact .inl rfl

/-- Routes that are ahead stay so when a type is settled on one route in both. -/
theorem Ahead.insert (h : Ahead names s t) (name : String) (route : Route) :
    Ahead names { s with settled := s.settled.insert name route }
      { t with settled := t.settled.insert name route } := by
  refine ⟨h.naming_eq, h.registered_eq, fun other => ?_⟩
  rw [settled?_insert, settled?_insert]
  split
  · exact .inl rfl
  · exact h.settled other

/-- Routes that are ahead stay so when the others catch up with a type. -/
theorem Ahead.catchUp (h : Ahead names s t) {route : Route} (hs : s.settled? name = some route) :
    Ahead names s { t with settled := t.settled.insert name route } := by
  refine ⟨h.naming_eq, h.registered_eq, fun other => ?_⟩
  rw [settled?_insert]
  split
  · rename_i hother
    exact .inl (hother ▸ hs)
  · exact h.settled other

/-- Routes that are ahead stay so when a type is enrolled in both that they are not ahead by. -/
theorem Ahead.enroll (h : Ahead names s t) (hname : ¬ names name) (r : Registration) :
    Ahead names (s.enroll name r) (t.enroll name r) := by
  have hregistered : (s.enroll name r).registered = (t.enroll name r).registered := by
    simp only [Routes.enroll, h.registered_eq]
  refine ⟨h.naming_eq, hregistered, fun other => ?_⟩
  rcases h.settled other with heq | ⟨hother, ht, route, hs, hroute⟩
  · exact .inl heq
  · have hne : other ≠ name := fun heq => hname (heq ▸ hother)
    refine .inr ⟨hother, ht, route, hs, ?_⟩
    rw [propose, registered_enroll, if_neg hne]
    exact hroute

/-- **A computation on the routes that does no more than settle types**, and only types of the given names. -/
structure Mild (names : String → Prop) (f : Routes → α × Routes) : Prop where
  ahead : ∀ s, Ahead names (f s).2 s
  alike : ∀ {others : String → Prop} {s t : Routes}, Ahead others s t →
    (f s).1 = (f t).1 ∧ Ahead others (f s).2 (f t).2

theorem mild_const (names : String → Prop) (a : α) : Mild names fun s => (a, s) :=
  ⟨fun s => .refl names s, fun h => ⟨rfl, h⟩⟩

/-- One computation and then another that goes by what the first came to. -/
theorem Mild.bind {f : Routes → α × Routes} {g : α → Routes → β × Routes} (hf : Mild names f)
    (hg : ∀ a, Mild names (g a)) : Mild names fun s => g (f s).1 (f s).2 := by
  refine ⟨fun s => ((hg _).ahead _).trans (hf.ahead s), fun h => ?_⟩
  obtain ⟨hfirst, hahead⟩ := hf.alike h
  rw [hfirst]
  exact (hg _).alike hahead

theorem Mild.map {f : Routes → α × Routes} (hf : Mild names f) (g : α → β) :
    Mild names fun s => (g (f s).1, (f s).2) := hf.bind fun a => mild_const names (g a)

end Routes

namespace Prepared

open Routes

variable {α β : Type} {names : String → Prop}

/-- A preparation that does no more than settle types. -/
def Mild (names : String → Prop) (p : Prepared α) : Prop := Routes.Mild names fun s => p.run.run s

/-- What follows on an outcome. -/
def follow {β γ : Type} (ok : β → γ) (error : ClientError → γ) : Outcome β → γ
  | .ok b => ok b
  | .error e => error e

/-- A preparation that is gone on with, whether it went through or not. -/
theorem Mild.follow {p : Prepared α} (hp : Mild names p) {ok : α → Routes → β × Routes}
    {error : ClientError → Routes → β × Routes} {f : Routes → β × Routes} (hok : ∀ a, Routes.Mild names (ok a))
    (herror : ∀ e, Routes.Mild names (error e))
    (hf : ∀ s, f s = Prepared.follow ok error (p.run.run s).1 (p.run.run s).2) : Routes.Mild names f := by
  have hnext : ∀ r : Outcome α, Routes.Mild names (Prepared.follow ok error r) := by
    intro r
    cases r with
    | ok a => exact hok a
    | error e => exact herror e
  obtain rfl : f = fun s => Prepared.follow ok error (p.run.run s).1 (p.run.run s).2 := funext hf
  exact Routes.Mild.bind hp hnext

theorem mild_pure (names : String → Prop) (a : α) : Mild names (pure a : Prepared α) := mild_const names _

theorem mild_of (names : String → Prop) (r : Outcome α) : Mild names (Prepared.of r) := mild_const names r

theorem Mild.bind {p : Prepared α} {f : α → Prepared β} (hp : Mild names p) (hf : ∀ a, Mild names (f a)) :
    Mild names (p >>= f) := by
  have hnext : ∀ a, Routes.Mild names fun s => (f a).run.run s := hf
  refine hp.follow hnext (fun e => mild_const names (.error e)) fun s => ?_
  rw [run_bind]
  rcases p.run.run s with ⟨_ | _, _⟩ <;> rfl

theorem Mild.map {p : Prepared α} (hp : Mild names p) (g : α → β) : Mild names (g <$> p) :=
  hp.bind fun a => mild_pure names (g a)

/-- A list is gone through step by step. -/
theorem mild_foldlM {f : β → α → Prepared β} {xs : List α} (hf : ∀ b, ∀ x ∈ xs, Mild names (f b x)) (b : β) :
    Mild names (xs.foldlM f b) := by
  induction xs generalizing b with
  | nil => exact mild_pure names b
  | cons x rest ih =>
    rw [List.foldlM_cons]
    exact (hf b x (List.mem_cons_self ..)).bind fun next =>
      ih (fun b y hy => hf b y (List.mem_cons_of_mem _ hy)) next

/-- What requiring a type comes to: the settled route, or else the one that it gets, which is settled. -/
theorem run_require_eq (name : String) (s : Routes) :
    (require name).run.run s = match s.settled? name with
      | some route => (.ok route, s)
      | none => match s.propose name with
        | .ok route => (.ok route, { s with settled := s.settled.insert name route })
        | .error e => (.error e, s) := by
  cases hsettled : s.settled? name with
  | some route => exact run_require (by simp [resolve, hsettled])
  | none =>
    cases hproposal : s.propose name with
    | ok route => exact run_require (by simp [resolve, settle, hsettled, hproposal])
    | error e => exact run_require_error (by simp [resolve, hsettled, hproposal])

/-- **Requiring a type does no more than settle it**: of two states one ahead of the other, both have the route that is
settled in the one. -/
theorem mild_require {name : String} (hname : names name) : Mild names (require name) := by
  constructor
  case ahead =>
    intro s
    rw [run_require_eq]
    split
    · exact .refl names s
    · split
      · exact ahead_insert hname ‹_› ‹_›
      · exact .refl names s
  case alike =>
    intro others s t h
    simp only [run_require_eq, h.propose_eq]
    rcases h.settled name with heq | ⟨-, ht, route, hs, hroute⟩
    · rw [heq]
      split
      · exact ⟨rfl, h⟩
      · split
        · exact ⟨rfl, h.insert name _⟩
        · exact ⟨rfl, h⟩
    · rw [hs, ht, hroute]
      exact ⟨rfl, h.catchUp hs⟩

end Prepared

/-- A preparation of a call does no more than settle types if its steps do not. -/
theorem Plan.mild_of {α : Type} {names : String → Prop} {p : Prepared (Call α)} (hp : p.Mild names) :
    Routes.Mild names (Plan.of p) := by
  refine hp.follow (Routes.mild_const names) (fun e => Routes.mild_const names (.done (.error e))) fun s => ?_
  rw [Plan.of]
  rcases p.run.run s with ⟨_ | _, _⟩ <;> rfl

namespace Client

open Routes Prepared

variable {α β ε : Type} {names : String → Prop} (c : Client) {T : EntityType α}

theorem mild_getWithSystem (hT : names T.name) (id : DocId) (options : ReadOptions) :
    Routes.Mild names (c.getWithSystem T id options) :=
  Plan.mild_of <| (mild_of names _).bind fun _ => (mild_require hT).bind fun _ => mild_pure names _

theorem mild_get (hT : names T.name) (id : DocId) (options : ReadOptions) : Routes.Mild names (c.get T id options) :=
  (c.mild_getWithSystem hT id options).map _

theorem mild_upsertWith (hT : names T.name) (e : α) (options : WriteOptions) :
    Routes.Mild names (c.upsertWith T e options) :=
  Plan.mild_of <| (mild_of names _).bind fun _ => (mild_require hT).bind fun _ => (mild_of names _).bind fun _ =>
    mild_pure names _

/-- A plan that is made only if its arguments are as they should be. -/
theorem mild_guarded {p : Plan β} (hp : Routes.Mild names p) (checks : Outcome Unit) :
    Routes.Mild names (guarded checks p) := by
  cases checks with
  | ok _ => exact hp
  | error e => exact mild_const names _

theorem mild_insert (hT : names T.name) (e : α) : Routes.Mild names (c.insert T e) :=
  mild_guarded (c.mild_upsertWith hT e {}) _

theorem mild_update (hT : names T.name) (e : α) : Routes.Mild names (c.update T e) :=
  mild_guarded (c.mild_upsertWith hT e {}) _

theorem mild_delete (db : DatabaseName) (id : DocId) (revision : Revision) (batch : Bool) :
    Routes.Mild names (c.delete db id revision batch) :=
  mild_guarded (mild_const names _) _

theorem mild_deleteEntity (hT : names T.name) (e : α) (batch : Bool) :
    Routes.Mild names (c.deleteEntity T e batch) := by
  have hprepared : Prepared.Mild names (do
      .of (requireId (T.id e))
      let deletion ← .of (Deletion.of T e)
      return (← require T.name, deletion)) :=
    (mild_of names _).bind fun _ => (mild_of names _).bind fun _ => (mild_require hT).bind fun _ => mild_pure names _
  refine hprepared.follow (fun found => c.mild_delete found.1.database found.2.id found.2.revision batch)
    (fun e => mild_const names (.done (.error e))) fun s => ?_
  rw [deleteEntity]
  split <;> rename_i hrun <;> simp only [hrun, Prepared.follow]

theorem mild_writeBatchIn (hT : names T.name) (db : DatabaseName) (upserts : List α) (deletions : List Deletion) :
    Routes.Mild names (c.writeBatchIn T db upserts deletions) := by
  refine Plan.mild_of <| (mild_of names _).bind fun _ => (mild_of names _).bind fun _ => ?_
  cases upserts.isEmpty && deletions.isEmpty with
  | true => exact mild_pure names _
  | false =>
    exact (mild_require hT).bind fun _ => (mild_of names _).bind fun _ => mild_pure names _

theorem mild_writeBatch (hT : names T.name) (upserts : List α) (deletions : List Deletion) :
    Routes.Mild names (c.writeBatch T upserts deletions) := by
  refine (mild_require hT).follow (fun route => c.mild_writeBatchIn hT route.database upserts deletions)
    (fun e => mild_const names (.done (.error e))) fun s => ?_
  unfold writeBatch
  rcases (require T.name).run.run s with ⟨_ | _, _⟩ <;> rfl

theorem mild_readBatchIn (db : DatabaseName) (ids : List DocId) (D : Dispatch ε) :
    Routes.Mild names (c.readBatchIn db ids D) :=
  mild_guarded (mild_const names _) _

theorem mild_readBatch (hT : names T.name) (ids : List DocId) : Routes.Mild names (c.readBatch T ids) := by
  refine (mild_require hT).follow (fun route => c.mild_readBatchIn route.database ids (Dispatch.single T route))
    (fun e => mild_const names (.done (.error e))) fun s => ?_
  unfold readBatch
  rcases (require T.name).run.run s with ⟨_ | _, _⟩ <;> rfl

theorem mild_getDesignWithSystem (db : DatabaseName) (id : DocId) (options : ReadOptions) :
    Routes.Mild names (c.getDesignWithSystem db id options) :=
  Plan.mild_of <| (mild_of names _).bind fun _ => mild_pure names _

theorem mild_getDesign (db : DatabaseName) (id : DocId) : Routes.Mild names (c.getDesign db id) :=
  (c.mild_getDesignWithSystem db id {}).map _

theorem mild_upsertDesign (db : DatabaseName) (d : DesignDocument) : Routes.Mild names (c.upsertDesign db d) :=
  Plan.mild_of <| (mild_of names _).bind fun _ => (mild_of names _).bind fun _ => mild_pure names _

theorem mild_deleteDesign (db : DatabaseName) (id : DocId) (revision : Revision) (batch : Bool) :
    Routes.Mild names (c.deleteDesign db id revision batch) :=
  Plan.mild_of <| (mild_of names _).bind fun _ => (mild_of names _).bind fun _ => mild_pure names _

theorem mild_rawView (db : DatabaseName) (design : DocId) (view : String) (request : ViewRequest) :
    Routes.Mild names (c.rawView db design view request) :=
  Plan.mild_of <| (mild_of names _).bind fun _ => (mild_of names _).bind fun _ => mild_pure names _

theorem mild_view (r : Reader β) (db : DatabaseName) (design : DocId) (view : String) (request : ViewRequest) :
    Routes.Mild names (c.view r db design view request) :=
  (c.mild_rawView db design view request).map _

theorem mild_followType (hT : names T.name) (request : FeedRequest) :
    Prepared.Mild names (c.followType T request) :=
  (mild_require hT).bind fun _ => mild_of names _

end Client

namespace DispatchPlan

/-- The names of the types that a dispatch is made with and whose class is not given. -/
def typeNames (p : DispatchPlan) : List String :=
  p.kinds.filterMap fun entry => if entry.2.isNone then some entry.1.type.name else none

theorem mild_dispatch (p : DispatchPlan) : p.dispatch.Mild (· ∈ p.typeNames) := by
  refine (Prepared.mild_foldlM (fun d entry hentry => ?_) _).bind fun _ => Prepared.mild_pure _ _
  obtain ⟨kind, className?⟩ := entry
  cases className? with
  | some className => exact (Prepared.mild_pure _ className).bind fun _ => Prepared.mild_pure _ _
  | none =>
    have hname : kind.type.name ∈ p.typeNames := List.mem_filterMap.2 ⟨_, hentry, rfl⟩
    exact ((Prepared.mild_require hname).map _).bind fun _ => Prepared.mild_pure _ _

end DispatchPlan

/-- The names of the entity types that a step resolves. -/
def Step.typeNames : Step → List String
  | .resolve kind | .get kind .. | .getWithSystem kind .. | .insert kind _ | .update kind _ | .upsert kind _
  | .upsertWith kind .. | .deleteEntity kind .. | .writeBatch kind .. | .writeBatchIn kind .. | .readBatch kind _
  | .feed (.typed kind) .. => [kind.type.name]
  | .readBatchIn _ _ documents | .feed (.pull _ documents _) .. | .feed (.push _ documents ..) .. =>
    documents.typeNames
  | _ => []

namespace Session

open Routes

variable {α : Type} {names : String → Prop}

theorem mild_single {p : Plan α} (hp : Routes.Mild names p) (wrap : α → StepResult) (answers : List Answer) :
    Routes.Mild names (single p wrap answers) :=
  hp.map fun call => (⟨(call.result (answers.head?.getD .refused)).map wrap,
    if (answers.head?.getD .refused).arrived then call.request?.toList else []⟩ : StepReport)

theorem mild_withDispatch {documents : DispatchPlan} {p : Dispatch Dispatched → Plan α}
    (hp : ∀ D, Routes.Mild (· ∈ documents.typeNames) (p D)) :
    Routes.Mild (· ∈ documents.typeNames) (withDispatch documents p) := by
  refine documents.mild_dispatch.follow hp (fun e => mild_const _ (.done (.error e))) fun s => ?_
  rw [withDispatch]
  rcases documents.dispatch.run.run s with ⟨_ | _, _⟩ <;> rfl

theorem mild_feed {prepared : Prepared (Feed α)} (hp : prepared.Mild names)
    (report : Feed α → FeedReport × List Request) : Routes.Mild names (feed prepared report) := by
  refine hp.follow (fun f => mild_const names (⟨.ok (.feed (report f).1), (report f).2⟩ : StepReport))
    (fun e => mild_const names ⟨.error e, []⟩) fun s => ?_
  rw [feed]
  rcases prepared.run.run s with ⟨_ | _, _⟩ <;> rfl

/-- A type that is resolved for its route. -/
theorem mild_resolve {name : String} (hname : names name) : Routes.Mild names fun s =>
    match s.resolve name with
    | .ok (route, after) => ((⟨.ok (.route route), []⟩ : StepReport), after)
    | .error e => (⟨.error e, []⟩, s) := by
  refine (Prepared.mild_require hname).follow (fun route => mild_const names (⟨.ok (.route route), []⟩ : StepReport))
    (fun e => mild_const names ⟨.error e, []⟩) fun s => ?_
  cases hresolve : s.resolve name with
  | ok found => simp only [run_require hresolve, Prepared.follow]
  | error e => simp only [run_require_error hresolve, Prepared.follow]

/-- Which types are registered is the same in routes that are ahead of others. -/
theorem mild_isRegistered (name : String) : Routes.Mild names fun s =>
    ((⟨.ok (.flag (s.isRegistered name)), []⟩ : StepReport), s) := by
  refine ⟨fun s => .refl names s, fun h => ⟨?_, h⟩⟩
  simp only [isRegistered, h.registered_eq]

theorem mild_prepareFeed (c : Client) (db : DatabaseName) (documents : DispatchPlan) (request : FeedRequest)
    (settings : FeedSettings) : (prepareFeed c db documents request settings).Mild (· ∈ documents.typeNames) :=
  documents.mild_dispatch.bind fun _ => Prepared.mild_of _ _

/-- **Every step but a registration does no more than settle types**, and only those that it resolves. -/
theorem mild_step (c : Client) {x : ScriptedStep} (hx : ∀ kind r, x.step ≠ .register kind r) :
    Routes.Mild (· ∈ x.step.typeNames) fun s => step c s x := by
  obtain ⟨call, answers⟩ := x
  cases call with
  | register kind r => exact absurd rfl (hx kind r)
  | isRegistered kind => exact mild_isRegistered kind.type.name
  | resolve kind => exact mild_resolve (List.mem_singleton_self _)
  | get kind id options => exact mild_single (c.mild_get (List.mem_singleton_self _) id options) _ _
  | getWithSystem kind id options => exact mild_single (c.mild_getWithSystem (List.mem_singleton_self _) id options) _ _
  | insert kind e => exact mild_single (c.mild_insert (List.mem_singleton_self _) e) _ _
  | update kind e => exact mild_single (c.mild_update (List.mem_singleton_self _) e) _ _
  | upsert kind e => exact mild_single (c.mild_upsertWith (List.mem_singleton_self _) e {}) _ _
  | upsertWith kind e options => exact mild_single (c.mild_upsertWith (List.mem_singleton_self _) e options) _ _
  | deleteEntity kind e batch => exact mild_single (c.mild_deleteEntity (List.mem_singleton_self _) e batch) _ _
  | delete db id revision batch => exact mild_single (c.mild_delete db id revision batch) _ _
  | writeBatch kind upserts deletions =>
    exact mild_single (c.mild_writeBatch (List.mem_singleton_self _) upserts deletions) _ _
  | writeBatchIn kind db upserts deletions =>
    exact mild_single (c.mild_writeBatchIn (List.mem_singleton_self _) db upserts deletions) _ _
  | readBatch kind ids => exact mild_single (c.mild_readBatch (List.mem_singleton_self _) ids) _ _
  | readBatchIn db ids documents =>
    exact mild_single (mild_withDispatch fun D => c.mild_readBatchIn db ids D) _ _
  | getDesign db id => exact mild_single (c.mild_getDesign db id) _ _
  | getDesignWithSystem db id options => exact mild_single (c.mild_getDesignWithSystem db id options) _ _
  | upsertDesign db d => exact mild_single (c.mild_upsertDesign db d) _ _
  | deleteDesign db id revision batch => exact mild_single (c.mild_deleteDesign db id revision batch) _ _
  | rawView db design view request => exact mild_single (c.mild_rawView db design view request) _ _
  | view db design view request values => exact mild_single (c.mild_view _ db design view request) _ _
  | feed mode request cancel =>
    cases mode with
    | pull db documents settings =>
      have heq : (fun s => step c s ⟨.feed (.pull db documents settings) request cancel, answers⟩) =
          feed (prepareFeed c db documents request settings)
            fun f => FeedReport.pull Dispatched.toJson f cancel answers := rfl
      exact heq ▸ mild_feed (mild_prepareFeed c db documents request settings) _
    | typed kind =>
      have heq : (fun s => step c s ⟨.feed (.typed kind) request cancel, answers⟩) =
          feed (c.followType kind.type request) fun f => FeedReport.pull StockEntity.toJson f cancel answers := rfl
      exact heq ▸ mild_feed (c.mild_followType (List.mem_singleton_self _) request) _
    | push db documents settings breaks =>
      have heq : (fun s => step c s ⟨.feed (.push db documents settings breaks) request cancel, answers⟩) =
          feed (prepareFeed c db documents request settings) fun f => FeedReport.push Dispatched.toJson
            (fun _ change => (Envelope.dropPrefix? breaks change.id.text).isSome) f cancel answers := rfl
      exact heq ▸ mild_feed (mild_prepareFeed c db documents request settings) _

/-- The routes of a session after some of its steps. -/
def routesAfter (c : Client) (s : Routes) (script : List ScriptedStep) : Routes :=
  script.foldl (fun s x => (step c s x).2) s

/-- A step settles a type that was open. -/
def Settles (c : Client) (s : Routes) (x : ScriptedStep) (name : String) : Prop :=
  s.settled? name = none ∧ ((step c s x).2.settled? name).isSome

theorem steps_cons (c : Client) (s : Routes) (x : ScriptedStep) (rest : List ScriptedStep) :
    steps c s (x :: rest) = (step c s x).1 :: steps c (step c s x).2 rest := rfl

@[simp] theorem length_steps (c : Client) (s : Routes) (script : List ScriptedStep) :
    (steps c s script).length = script.length := by
  induction script generalizing s with
  | nil => rfl
  | cons x rest ih => simp [steps_cons, ih]

theorem steps_append (c : Client) (s : Routes) (before after : List ScriptedStep) :
    steps c s (before ++ after) = steps c s before ++ steps c (routesAfter c s before) after := by
  induction before generalizing s with
  | nil => rfl
  | cons x rest ih => simp [steps_cons, ih, routesAfter]

/-- A registration comes to the same on routes that are ahead, if its type is not one that they are ahead by. -/
theorem register_alike {c : Client} {s t : Routes} (h : Ahead names s t) {kind : EntityKind}
    (hkind : ¬ names kind.type.name) (r : Registration) (answers : List Answer) :
    (step c s ⟨.register kind r, answers⟩).1 = (step c t ⟨.register kind r, answers⟩).1
      ∧ Ahead names (step c s ⟨.register kind r, answers⟩).2 (step c t ⟨.register kind r, answers⟩).2 := by
  have hsettled : s.settled? kind.type.name = t.settled? kind.type.name :=
    (h.settled kind.type.name).resolve_right fun hnew => hkind hnew.1
  cases ht : t.settled? kind.type.name with
  | some route =>
    simp only [step, register, isSettled, hsettled, ht]
    exact ⟨rfl, h⟩
  | none =>
    simp only [step, register, isSettled, hsettled, ht]
    exact ⟨rfl, h.enroll hkind r⟩

/-- **Steps come to the same on routes that are ahead**, if none registers a type that they are ahead by. The induction
is on the steps: after each of them the one state is still ahead of the other, and by no other types. -/
theorem steps_alike {c : Client} {s t : Routes} (h : Ahead names s t) {script : List ScriptedStep}
    (hscript : ∀ y ∈ script, ∀ kind r, y.step = .register kind r → ¬ names kind.type.name) :
    steps c s script = steps c t script := by
  induction script generalizing s t with
  | nil => rfl
  | cons y rest ih =>
    have hstep : (step c s y).1 = (step c t y).1 ∧ Ahead names (step c s y).2 (step c t y).2 := by
      by_cases hy : ∃ kind r, y.step = .register kind r
      · obtain ⟨kind, r, hkind⟩ := hy
        obtain ⟨call, answers⟩ := y
        obtain rfl : call = .register kind r := hkind
        exact register_alike h (hscript _ (List.mem_cons_self ..) kind r rfl) r answers
      · exact (mild_step c fun kind r hkind => hy ⟨kind, r, hkind⟩).alike h
    rw [steps_cons, steps_cons, hstep.1, ih hstep.2 fun z hz => hscript z (List.mem_cons_of_mem y hz)]

/-- **A step can be taken out of a session.** Let a step that is not a registration go between some steps and others,
and let none of the later ones register a type that it settles. Then each of the others comes to the same result and
sends the same requests without it; and the types that it settles are among those that it resolves. -/
theorem run_without (c : Client) (s : Routes) (before after : List ScriptedStep) (x : ScriptedStep)
    (hx : ∀ kind r, x.step ≠ .register kind r)
    (hafter : ∀ y ∈ after, ∀ kind r, y.step = .register kind r →
      ¬ Settles c (routesAfter c s before) x kind.type.name) :
    steps c s (before ++ after) = (steps c s (before ++ x :: after)).eraseIdx before.length
      ∧ ∀ name, Settles c (routesAfter c s before) x name → name ∈ x.step.typeNames := by
  have hahead := (mild_step c hx).ahead (routesAfter c s before)
  refine ⟨?_, fun name hname => hahead.mem_names hname.1 hname.2⟩
  have halike : steps c (step c (routesAfter c s before) x).2 after = steps c (routesAfter c s before) after :=
    steps_alike hahead.sharp hafter
  calc steps c s (before ++ after)
      = steps c s before ++ steps c (routesAfter c s before) after := steps_append c s before after
    _ = steps c s before ++ (steps c (routesAfter c s before) (x :: after)).eraseIdx 0 := by
      rw [steps_cons, List.eraseIdx_cons_zero, halike]
    _ = (steps c s before ++ steps c (routesAfter c s before) (x :: after)).eraseIdx before.length := by
      rw [List.eraseIdx_append_of_length_le (by simp)]
      simp
    _ = (steps c s (before ++ x :: after)).eraseIdx before.length := by rw [steps_append]

/-- A type is registered, a read that finds no server settles it, another type is registered, and the first one is
resolved: without the read the others come to the same. -/
theorem run_without_sample :
    steps .sample { naming := .perType } [⟨.register .test {}, []⟩, ⟨.register .note {}, []⟩, ⟨.resolve .test, []⟩]
      = (steps .sample { naming := .perType } [⟨.register .test {}, []⟩, ⟨.get .test ⟨"a"⟩ {}, [.refused]⟩,
          ⟨.register .note {}, []⟩, ⟨.resolve .test, []⟩]).eraseIdx 1 := by
  have hothers := (run_without .sample { naming := .perType } [⟨.register .test {}, []⟩]
    [⟨.register .note {}, []⟩, ⟨.resolve .test, []⟩] ⟨.get .test ⟨"a"⟩ {}, [.refused]⟩ (by simp) ?_).1
  · exact hothers
  · intro y hy kind r hkind hsettles
    obtain rfl : kind = .note := by
      simp only [List.mem_cons, List.not_mem_nil, or_false] at hy
      rcases hy with rfl | rfl
      · cases hkind
        rfl
      · cases hkind
    exact absurd hsettles.2 (by decide +kernel)

end Session
end DocClient
