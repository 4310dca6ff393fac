/-
# The compact text of a value is one line

The text of a value has no control character, whatever characters its strings and its keys have, so no newline ends it
before its end (`Json.plain_text`):

| part of the text | its characters |
| --- | --- |
| a string | an escape for a control character, and each other character for itself |
| a number | digits, signs, a point and an `e` |
| what holds the parts together | brackets, braces, commas and colons |
-/

import DocClient.Json.Printer
import Mathlib.Data.List.Basic

namespace DocClient

/-- A text without control characters. -/
def Text.Plain (cs : List Char) : Prop := ∀ c ∈ cs, 0x20 ≤ c.toNat

namespace Text

variable {c : Char} {cs ds : List Char}

@[simp] theorem plain_nil : Plain [] := fun _ hc => nomatch hc

@[simp] theorem plain_cons : Plain (c :: cs) ↔ 0x20 ≤ c.toNat ∧ Plain cs := List.forall_mem_cons

@[simp] theorem plain_append : Plain (cs ++ ds) ↔ Plain cs ∧ Plain ds := List.forall_mem_append

theorem Plain.sublist (h : Plain ds) (hsub : cs.Sublist ds) : Plain cs := fun c hc => h c (hsub.subset hc)

/-- A text without control characters is one line. -/
theorem Plain.newline_not_mem (h : Plain cs) : '\n' ∉ cs := fun hmem => absurd (h _ hmem) (by decide)

end Text

open Text

namespace Double

theorem plain_digitsOf (n : Nat) : Plain (digitsOf n) := by
  intro c hc
  have hdigit : c.isDigit = true := Nat.isDigit_of_mem_toDigits (by decide) (by decide) hc
  simp only [Char.isDigit, Bool.and_eq_true, decide_eq_true_eq] at hdigit
  have hzero : '0'.toNat ≤ c.toNat := UInt32.le_iff_toNat_le.1 hdigit.1
  have hcontrol : 0x20 ≤ '0'.toNat := by decide
  omega

theorem plain_zeros (n : Nat) : Plain (List.replicate n '0') := by
  intro c hc
  obtain rfl := List.eq_of_mem_replicate hc
  decide

theorem plain_exponentText (e : Int) : Plain (exponentText e) := by
  have hdigits := plain_digitsOf e.natAbs
  simp only [exponentText]
  split <;> split <;> simp [hdigits]

theorem plain_decimalText (c : Nat) (k : Int) : Plain (decimalText c k) := by
  have hdigits := plain_digitsOf c
  simp only [decimalText]
  split
  · split
    · simp [hdigits, plain_zeros]
    · split
      · simp [hdigits.sublist (List.take_sublist _ _), hdigits.sublist (List.drop_sublist _ _)]
      · simp [hdigits, plain_zeros]
  · split
    · exact plain_nil
    · rename_i d hd
      rw [hd] at hdigits
      simpa [plain_exponentText] using hdigits
    · rename_i d ds _ hd
      rw [hd] at hdigits
      simpa [plain_exponentText] using hdigits

/-- The text of a number is digits, signs, a point and an `e`. -/
theorem plain_text (x : Double) : Plain x.text := by
  have hzero : Plain ['0', '.', '0'] := by simp
  have hother : Plain (decimalText x.shortest.1 x.shortest.2) := plain_decimalText _ _
  have hminus : 0x20 ≤ '-'.toNat := by decide
  rw [text]
  split_ifs
  · exact plain_cons.2 ⟨hminus, hzero⟩
  · exact plain_cons.2 ⟨hminus, hother⟩
  · exact hzero
  · exact hother

end Double

namespace Json

/-- A hexadecimal digit is no control character. -/
theorem le_toNat_digitChar {n : Nat} (h : n < 16) : 0x20 ≤ (Nat.digitChar n).toNat := by
  decide +revert

/-- A character inside a string is escaped if it is a control character. -/
theorem plain_escapedChar (c : Char) : Plain (escapedChar c) := by
  by_cases hcontrol : c.toNat < 0x20
  · have hhigh := le_toNat_digitChar (n := c.toNat / 16) (by omega)
    have hlow := le_toNat_digitChar (n := c.toNat % 16) (by omega)
    rw [escapedChar]
    split_ifs <;> simp [hhigh, hlow]
  · rw [escapedChar]
    split_ifs <;> simp
    omega

theorem plain_stringText (s : String) : Plain (stringText s) := by
  have hescaped : Plain (s.toList.flatMap escapedChar) := by
    intro c hc
    obtain ⟨d, -, hd⟩ := List.mem_flatMap.1 hc
    exact plain_escapedChar d c hd
  simp [stringText, hescaped]

theorem plain_numberText (n : Number) : Plain (numberText n) := by
  cases n with
  | int n =>
    rw [numberText, intText]
    split <;> simp [Double.plain_digitsOf]
  | float x => exact x.plain_text

mutual

/-- **The text of a value has no control character.** -/
theorem plain_text : ∀ v : Json, Plain v.text
  | .null => by simp [text]
  | .bool b => by cases b <;> simp [text]
  | .num n => by
    rw [text]
    exact plain_numberText n
  | .str s => by
    rw [text]
    exact plain_stringText s
  | .arr [] => by simp [text]
  | .arr (v :: rest) => by simp [text, plain_text v, plain_itemsText rest]
  | .obj [] => by simp [text]
  | .obj ((k, v) :: rest) => by simp [text, plain_stringText k, plain_text v, plain_membersText rest]

theorem plain_itemsText : ∀ items : List Json, Plain (itemsText items)
  | [] => by simp [itemsText]
  | v :: rest => by simp [itemsText, plain_text v, plain_itemsText rest]

theorem plain_membersText : ∀ members : List (String × Json), Plain (membersText members)
  | [] => by simp [membersText]
  | (k, v) :: rest => by simp [membersText, plain_stringText k, plain_text v, plain_membersText rest]

end

end Json
end DocClient
