/-
# Calls for one document

Every call of a client for one document looks at its arguments, at the route of the entity type and at what the entity
is encoded to, and if nothing stands against it then it sends one request for a path of two names, the database and the
document (`DocumentCall.request?_eq`). What it is that is sent is its `Errand`:

| call | asks for | refused |
| --- | --- | --- |
| `get`, `getWithSystem` | a read | blank name |
| `insert` | a write | blank name, a revision |
| `update` | a write | blank name, no revision or a blank one |
| `upsert`, `upsertWith` | a write | blank name |
| `delete` | a deletion | blank name, blank revision |
| `deleteEntity` | a deletion | blank name, no revision or a blank one |

All but `delete` are refused as well where the entity type has no route, and a write where the entity has no stored
form.
-/

import DocClient.Proofs.Client
import DocClient.Store.Write

namespace DocClient

/-- A call for one document: of an entity, or of a document that the caller names. -/
inductive DocumentCall (α : Type) where
  | get (id : DocId) (options : ReadOptions)
  | getWithSystem (id : DocId) (options : ReadOptions)
  | insert (e : α)
  | update (e : α)
  | upsert (e : α)
  | upsertWith (e : α) (options : WriteOptions)
  | delete (db : DatabaseName) (id : DocId) (revision : Revision) (batch : Bool)
  | deleteEntity (e : α) (batch : Bool)

/-- What a call has to send: for which document, and how. -/
structure Errand where
  method : Method
  database : DatabaseName
  id : DocId
  options : List (String × String)
  body : Option Json

namespace Errand

/-- The names that the path of an errand has. -/
def path (d : Errand) : List String := [d.database.text, d.id.text]

/-- The request for an errand. -/
def request? (c : Client) (d : Errand) : Option Request := c.request? d.method d.path (some d.options) d.body

/-- A deletion. -/
def deletion (db : DatabaseName) (id : DocId) (revision : Revision) (batch : Bool) : Errand :=
  ⟨.delete, db, id, ("rev", revision.text) :: if batch then [("batch", "ok")] else [], none⟩

end Errand

namespace DocumentCall

variable {α : Type} (c : Client) (T : EntityType α) (routes : Routes)

/-- The request that a call sends. -/
def request? : DocumentCall α → Option Request
  | .get id options => (c.get T id options routes).1.request?
  | .getWithSystem id options => (c.getWithSystem T id options routes).1.request?
  | .insert e => (c.insert T e routes).1.request?
  | .update e => (c.update T e routes).1.request?
  | .upsert e => (c.upsert T e routes).1.request?
  | .upsertWith e options => (c.upsertWith T e options routes).1.request?
  | .delete db id revision batch => (c.delete db id revision batch routes).1.request?
  | .deleteEntity e batch => (c.deleteEntity T e batch routes).1.request?

/-- The route that an entity type has or gets. -/
def route? : Option Route := (routes.resolve T.name).toOption.map Prod.fst

/-- What reading a document has to send. -/
def read? (id : DocId) (options : ReadOptions) : Option Errand :=
  if id.isBlank then none
  else (route? T routes).map fun route => ⟨.get, route.database, id, options.query, none⟩

/-- What writing an entity has to send. -/
def write? (e : α) (options : WriteOptions) : Option Errand :=
  if (T.id e).isBlank then none
  else (route? T routes).bind fun route =>
    (Envelope.encode c.style route.className (T.toJson e)).toOption.map fun body =>
      ⟨.put, route.database, T.id e, options.query, some (.obj body)⟩

/-- What a call has to send; none if it is refused. -/
def errand? : DocumentCall α → Option Errand
  | .get id options | .getWithSystem id options => read? T routes id options
  | .insert e => if (T.revision e).isSome then none else write? c T routes e {}
  | .update e => if (T.revision e).all Revision.isBlank then none else write? c T routes e {}
  | .upsert e => write? c T routes e {}
  | .upsertWith e options => write? c T routes e options
  | .delete db id revision batch =>
    if id.isBlank || revision.isBlank then none else some (.deletion db id revision batch)
  | .deleteEntity e batch =>
    (T.revision e).bind fun revision =>
      if (T.id e).isBlank || revision.isBlank then none
      else (route? T routes).map fun route => .deletion route.database (T.id e) revision batch

variable {c T routes}

theorem request?_get {id : DocId} {options : ReadOptions} :
    (c.get T id options routes).1.request? = (c.getWithSystem T id options routes).1.request? := by
  rw [Client.get]
  exact Call.request?_andThen _ _

theorem requireId_eq (id : DocId) : requireId id = if id.isBlank then .error (.misuse .blankId) else .ok () := by
  rw [requireId, forbid]

theorem request?_getWithSystem {id : DocId} {options : ReadOptions} :
    (c.getWithSystem T id options routes).1.request? = (read? T routes id options).bind (Errand.request? c) := by
  simp only [Client.getWithSystem, Plan.of, Prepared.run_bind, Prepared.run_of, requireId_eq, read?]
  cases hblank : id.isBlank with
  | true => rfl
  | false =>
    cases hroute : routes.resolve T.name with
    | error e =>
      simp only [Bool.false_eq_true, if_false, Routes.run_require_error hroute, route?, hroute]
      rfl
    | ok found =>
      simp only [Bool.false_eq_true, if_false, Routes.run_require hroute, route?, hroute, Prepared.run_pure,
        Call.request?_andThen, Client.readDocument, Client.request?_call, Except.toOption, Option.map_some,
        Option.bind_some, Errand.request?, Errand.path]

theorem request?_upsertWith {e : α} {options : WriteOptions} :
    (c.upsertWith T e options routes).1.request? = (write? c T routes e options).bind (Errand.request? c) := by
  simp only [Client.upsertWith, Plan.of, Prepared.run_bind, Prepared.run_of, requireId_eq, write?]
  cases hblank : (T.id e).isBlank with
  | true => rfl
  | false =>
    cases hroute : routes.resolve T.name with
    | error e =>
      simp only [Bool.false_eq_true, if_false, Routes.run_require_error hroute, route?, hroute]
      rfl
    | ok found =>
      simp only [Bool.false_eq_true, if_false, Routes.run_require hroute, route?, hroute, Except.toOption,
        Option.map_some, Option.bind_some]
      cases Envelope.encode c.style found.1.className (T.toJson e) with
      | error e => rfl
      | ok body =>
        simp only [Prepared.run_pure, Client.putDocument, Client.request?_call, Option.map_some, Option.bind_some,
          Errand.request?, Errand.path]

/-- A call that is guarded by its arguments. -/
theorem request?_guarded {β : Type} {id : DocId} {misused : Bool} {m : Misuse} {p : Plan β} :
    (Client.guarded (do requireId id; forbid misused m) p routes).1.request?
      = if id.isBlank || misused then none else (p routes).1.request? := by
  simp only [requireId_eq]
  cases id.isBlank <;> cases misused <;> rfl

theorem request?_delete {db : DatabaseName} {id : DocId} {revision : Revision} {batch : Bool} :
    (c.delete db id revision batch routes).1.request?
      = if id.isBlank || revision.isBlank then none else (Errand.deletion db id revision batch).request? c := by
  rw [Client.delete, request?_guarded, Client.deleteDocument, Client.request?_call]
  rfl

theorem request?_deleteEntity {e : α} {batch : Bool} :
    (c.deleteEntity T e batch routes).1.request?
      = (errand? c T routes (.deleteEntity e batch)).bind (Errand.request? c) := by
  simp only [Client.deleteEntity, Prepared.run_bind, Prepared.run_of, requireId_eq, errand?]
  cases hblank : (T.id e).isBlank with
  | true => cases T.revision e <;> rfl
  | false =>
    cases hrev : T.revision e with
    | none => simp only [Bool.false_eq_true, if_false, Deletion.of, hrev, Option.bind_none]; rfl
    | some revision =>
      cases hroute : routes.resolve T.name with
      | error err =>
        simp only [Bool.false_eq_true, if_false, Deletion.of, hrev, Routes.run_require_error hroute, Option.bind_some,
          route?, hroute]
        cases revision.isBlank <;> rfl
      | ok found =>
        simp only [Bool.false_eq_true, if_false, Deletion.of, hrev, Routes.run_require hroute, Prepared.run_pure,
          request?_delete, Option.bind_some, route?, hroute, hblank, Bool.false_or, Except.toOption, Option.map_some]
        split
        · rw [Option.bind_none]
        · rw [Option.bind_some]

/-- **A call sends the request for its errand**, if it has one, and nothing else. -/
theorem request?_eq (call : DocumentCall α) :
    call.request? c T routes = (call.errand? c T routes).bind (Errand.request? c) := by
  have hguarded : ∀ (e : α) (misused : Bool) (m : Misuse),
      (Client.guarded (do requireId (T.id e); forbid misused m) (c.upsert T e) routes).1.request?
        = (if misused then none else write? c T routes e {}).bind (Errand.request? c) := by
    intro e misused m
    rw [request?_guarded, Client.upsert, request?_upsertWith, write?]
    cases (T.id e).isBlank <;> cases misused <;> rfl
  cases call with
  | get id options => rw [request?, errand?, request?_get, request?_getWithSystem]
  | getWithSystem id options => rw [request?, errand?, request?_getWithSystem]
  | insert e => rw [request?, errand?, Client.insert, hguarded]
  | update e => rw [request?, errand?, Client.update, hguarded]
  | upsert e => rw [request?, errand?, Client.upsert, request?_upsertWith]
  | upsertWith e options => rw [request?, errand?, request?_upsertWith]
  | delete db id revision batch =>
    rw [request?, request?_delete, errand?]
    split
    · rw [Option.bind_none]
    · rw [Option.bind_some]
  | deleteEntity e batch => rw [request?, request?_deleteEntity]

/-- What a write has to send is the stored form of the entity, for the document of its name. -/
theorem write?_eq_some {e : α} {options : WriteOptions} {d : Errand} :
    write? c T routes e options = some d ↔ (T.id e).isBlank = false ∧ ∃ route body, route? T routes = some route
      ∧ Envelope.encode c.style route.className (T.toJson e) = .ok body
      ∧ d = ⟨.put, route.database, T.id e, options.query, some (.obj body)⟩ := by
  rw [write?]
  cases (T.id e).isBlank with
  | true => simp
  | false =>
    simp only [Bool.false_eq_true, if_false, Option.bind_eq_some_iff, Option.map_eq_some_iff, true_and]
    refine exists_congr fun route => ?_
    cases Envelope.encode c.style route.className (T.toJson e) <;> simp [Except.toOption, eq_comm]

/-- A call has something to send only for a document with a name. -/
theorem isBlank_of_errand? {call : DocumentCall α} {d : Errand} (h : call.errand? c T routes = some d) :
    d.id.isBlank = false := by
  have hread : ∀ {id : DocId} {options : ReadOptions}, read? T routes id options = some d → d.id.isBlank = false := by
    intro id options h
    obtain ⟨hblank, h⟩ := Option.ite_none_left_eq_some.1 h
    obtain ⟨route, -, rfl⟩ := Option.map_eq_some_iff.1 h
    simpa using hblank
  have hwrite : ∀ {e : α} {options : WriteOptions}, write? c T routes e options = some d → d.id.isBlank = false := by
    intro e options h
    obtain ⟨hblank, -, -, -, -, rfl⟩ := write?_eq_some.1 h
    exact hblank
  cases call with
  | get id options => exact hread h
  | getWithSystem id options => exact hread h
  | insert e => exact hwrite (Option.ite_none_left_eq_some.1 h).2
  | update e => exact hwrite (Option.ite_none_left_eq_some.1 h).2
  | upsert e => exact hwrite h
  | upsertWith e options => exact hwrite h
  | delete db id revision batch =>
    obtain ⟨hblank, h⟩ := Option.ite_none_left_eq_some.1 h
    obtain rfl := Option.some.inj h
    exact (Bool.or_eq_false_iff.1 (Bool.eq_false_iff.2 hblank)).1
  | deleteEntity e batch =>
    obtain ⟨revision, -, h⟩ := Option.bind_eq_some_iff.1 h
    obtain ⟨hblank, h⟩ := Option.ite_none_left_eq_some.1 h
    obtain ⟨route, -, rfl⟩ := Option.map_eq_some_iff.1 h
    exact (Bool.or_eq_false_iff.1 (Bool.eq_false_iff.2 hblank)).1

end DocumentCall
end DocClient
