/-
# What the readers make of values

A reader of a simple type reads the values that are written of that type, and no others; a reader of lists or tables
reads the items that its own reader reads:

| reader | reads |
| --- | --- |
| `text`, `flag`, `object` | a string, a boolean, an object, and nothing else |
| `integer`, `natural` | an integer within its bounds |
| `option r` | null, or what `r` reads |
| `list r` | an array, item by item (`Reader.list_ofJson`) |
| `table r` | an object in order, member by member (`Reader.table_written`) |

So where `r` reads what was written of some values, `list r` and `table r` read what was written of a list and of a
table of them.
-/

import DocClient.Proofs.Json.Value
import Mathlib.Data.List.Forall2

namespace DocClient
namespace Reader

variable {α : Type}

/-- A value other than null is a value of the type. -/
theorem option_ofJson {r : Reader α} {o : Origin} {v : Json} (hv : v ≠ .null) :
    option r o (Draft.ofJson v) = (r o (Draft.ofJson v)).map some := by
  cases v with
  | null => exact absurd rfl hv
  | _ => rfl

theorem text_ofJson {v : Json} {s : String} : text.ofJson v = .ok s ↔ v = .str s := by
  cases v <;> simp [ofJson, Draft.ofJson, text, mismatch, Draft.found?]

theorem flag_ofJson {v : Json} {b : Bool} : flag.ofJson v = .ok b ↔ v = .bool b := by
  cases v <;> simp [ofJson, Draft.ofJson, flag, mismatch, Draft.found?]

/-- An object that is there is read as it is. -/
theorem object_ofJson_iff {v : Json} (hc : v.Canonical) {d : Object} : object.ofJson v = .ok d ↔ v = .obj d := by
  cases v with
  | obj o =>
    have h : object.ofJson (.obj o) = .ok o := object_ofJson rfl hc.1 hc.2
    rw [h, Except.ok.injEq, Json.obj.injEq]
  | _ => simp [ofJson, Draft.ofJson, object, mismatch, Draft.found?]

theorem integer_ofJson {low high : Int} {expected : String} {o : Origin} {n : Int} (h : low ≤ n ∧ n ≤ high) :
    integer low high expected o (Draft.ofJson (Json.ofInt n)) = .ok n := by
  simp [Json.ofInt, Draft.ofJson, integer, h]

theorem natural_ofJson {high : Nat} {expected : String} {o : Origin} {n : Nat} (h : n ≤ high) :
    natural high expected o (Draft.ofJson (Json.ofNat n)) = .ok n := by
  have hn : (0 : Int) ≤ n ∧ (n : Int) ≤ high := ⟨Int.natCast_nonneg n, Int.ofNat_le.2 h⟩
  rw [natural, Json.ofNat, ← Json.ofInt, integer_ofJson hn, Outcome.map_ok, Int.toNat_natCast]

/-- A list is read item by item. -/
theorem mapM_ofItems {r : Reader α} {o : Origin} {items : List Json} {values : List α} :
    (Draft.ofItems items).mapM (r o) = .ok values
      ↔ List.Forall₂ (fun v a => r o (Draft.ofJson v) = .ok a) items values := by
  induction items generalizing values with
  | nil => cases values <;> simp [Draft.ofItems]
  | cons v rest ih =>
    rw [Draft.ofItems, List.mapM_cons, Outcome.bind_eq_ok]
    constructor
    · rintro ⟨a, ha, h⟩
      obtain ⟨more, hmore, h⟩ := Outcome.bind_eq_ok.1 h
      obtain rfl := Except.ok.inj h
      exact .cons ha (ih.1 hmore)
    · rintro (_ | ⟨ha, hmore⟩)
      exact ⟨_, ha, by rw [ih.2 hmore]; rfl⟩

theorem list_ofJson {r : Reader α} {v : Json} {values : List α} :
    (list r).ofJson v = .ok values
      ↔ ∃ items, v = .arr items ∧ List.Forall₂ (fun v a => r.ofJson v = .ok a) items values := by
  constructor
  · intro h
    cases v with
    | arr items =>
      obtain ⟨o, ho, h⟩ := Outcome.bind_eq_ok.1 h
      obtain ⟨read, hv, h⟩ := Outcome.bind_eq_ok.1 h
      obtain rfl := Except.ok.inj h
      obtain rfl := Except.ok.inj ho
      exact ⟨items, rfl, mapM_ofItems.1 hv⟩
    | _ => cases h
  · rintro ⟨items, rfl, h⟩
    have hv := mapM_ofItems.2 h
    simp only [ofJson, Draft.ofJson, list, Origin.enter, Outcome.ok_bind, hv, whole, if_true, Outcome.pure_eq_ok]

/-- **A list of values that are read back is read back.** -/
theorem list_written {r : Reader α} {write : α → Json} {values : List α}
    (h : ∀ a ∈ values, r.ofJson (write a) = .ok a) : (list r).ofJson (.arr (values.map write)) = .ok values := by
  have hitems : List.Forall₂ (fun v a => r.ofJson v = .ok a) (values.map write) values :=
    List.forall₂_map_left_iff.2 (List.forall₂_same.2 h)
  exact list_ofJson.2 ⟨_, rfl, hitems⟩

theorem list_ofStrings {o : Origin} (texts : List String) (ho : o.enter = .ok o) :
    list text o (Draft.ofJson (Json.ofStrings texts)) = .ok texts := by
  have hitems : List.Forall₂ (fun v s => text o (Draft.ofJson v) = .ok s) (texts.map Json.str) texts :=
    List.forall₂_map_left_iff.2 (List.forall₂_same.2 fun _ _ => rfl)
  simp [Json.ofStrings, Draft.ofJson, list, ho, mapM_ofItems.2 hitems, whole]

/-- Members are read one by one. -/
theorem mapM_ofMembers {r : Reader α} {write : α → Json} {t : Table α} (h : ∀ m ∈ t, r.ofJson (write m.2) = .ok m.2) :
    (Draft.ofMembers (t.map fun m => (m.1, write m.2))).mapM
      (fun m => key m.1 >>= fun k => r .value m.2 >>= fun a => .ok (k, a)) = .ok t := by
  induction t with
  | nil => rfl
  | cons m rest ih =>
    have hm : r .value (Draft.ofJson (write m.2)) = .ok m.2 := h m (List.mem_cons_self ..)
    rw [List.map_cons, Draft.ofMembers, List.mapM_cons, ih fun m' hm' => h m' (List.mem_cons_of_mem _ hm')]
    simp [key, hm]

/-- **A table of values that are read back is read back.** -/
theorem table_written {r : Reader α} {write : α → Json} {t : Table α} (hs : t.Sorted)
    (h : ∀ m ∈ t, r.ofJson (write m.2) = .ok m.2) :
    (table r).ofJson (.obj (t.map fun m => (m.1, write m.2))) = .ok t := by
  simp [ofJson, Draft.ofJson, table, Origin.enter, mapM_ofMembers h, whole, Table.ofList_eq_self hs]

end Reader
end DocClient
