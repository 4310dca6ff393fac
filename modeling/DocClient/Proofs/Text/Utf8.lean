/-
# Texts and their bytes

The bytes of a text decode to the text, strictly (`decode?_encode`) and with replacement (`decodeReplacing_encode`).
More is needed of a text whose bytes were cut off anywhere: as far as they got they decode to a part of the text that it
starts with, or to nothing where a character was cut in two (`prefix_of_decode?`).

Both go by one account of the bytes of a character (`CharBytes`): a whole character, or a lead byte that owes
continuation bytes and continuation bytes that complete it (`Completes`). Along the way every strict beginning is a
character part way through.
-/

import DocClient.Text.Utf8
import Mathlib.Data.List.Infix
import Mathlib.Tactic.IntervalCases

namespace DocClient
namespace Text

/-- Bytes go on with a character part way through up to its end. -/
def Completes : Partial → List UInt8 → Char → Prop
  | _, [], _ => False
  | p, b :: rest, c =>
    (p.least ≤ b.toNat ∧ b.toNat ≤ p.greatest) ∧
      if p.owed ≤ 1 then rest = [] ∧ Char.ofNat (p.value * 64 + (b.toNat - 0x80)) = c
      else Completes ⟨p.value * 64 + (b.toNat - 0x80), p.owed - 1, 0x80, 0xbf⟩ rest c

theorem Completes.last {v least greatest : Nat} {b : UInt8} {c : Char} (hb : least ≤ b.toNat ∧ b.toNat ≤ greatest)
    (hc : v * 64 + (b.toNat - 0x80) = c.toNat) : Completes ⟨v, 1, least, greatest⟩ [b] c :=
  ⟨hb, rfl, hc ▸ Char.ofNat_toNat c⟩

theorem Completes.more {v k least greatest : Nat} {b : UInt8} {rest : List UInt8} {c : Char}
    (hb : least ≤ b.toNat ∧ b.toNat ≤ greatest)
    (h : Completes ⟨v * 64 + (b.toNat - 0x80), k + 1, 0x80, 0xbf⟩ rest c) :
    Completes ⟨v, k + 2, least, greatest⟩ (b :: rest) c := by
  refine ⟨hb, ?_⟩
  rw [if_neg (show ¬ k + 2 ≤ 1 by omega)]
  exact h

/-- Bytes that complete a character are read as it, whatever follows. -/
theorem Completes.pieces_append : ∀ {rest : List UInt8} {p : Partial} {c : Char}, Completes p rest c →
    ∀ bs, pieces (some p) (rest ++ bs) = some c :: pieces none bs
  | [], _, _, h, _ => h.elim
  | b :: rest, p, c, ⟨hb, h⟩, bs => by
    rw [List.cons_append, pieces, if_pos hb]
    split at h
    · rename_i ho
      obtain ⟨rfl, hc⟩ := h
      simp [ho, hc]
    · rename_i ho
      simp only [ho, if_false]
      exact h.pieces_append bs

/-- Without the last of them the character stays part way through. -/
theorem Completes.pieces_prefix : ∀ {rest : List UInt8} {p : Partial} {c : Char}, Completes p rest c →
    ∀ bs, bs <+: rest → bs ≠ rest → pieces (some p) bs = [none]
  | [], _, _, h, _, _, _ => h.elim
  | b :: rest, p, c, ⟨hb, h⟩, bs, hbs, hne => by
    rcases List.prefix_cons_iff.1 hbs with rfl | ⟨bs, rfl, hbs'⟩
    · rfl
    · have hne : bs ≠ rest := fun heq => hne (heq ▸ rfl)
      rw [pieces, if_pos hb]
      split at h
      · obtain ⟨rfl, -⟩ := h
        exact absurd (List.prefix_nil.1 hbs') hne
      · rename_i ho
        simp only [ho, if_false]
        exact h.pieces_prefix bs hbs' hne

/-- The bytes of a character: one that is the character, or a lead byte and what it owes. -/
inductive CharBytes (c : Char) : List UInt8 → Prop where
  | whole {b : UInt8} : Lead.ofByte b = .whole c → CharBytes c [b]
  | part {b : UInt8} {p : Partial} {rest : List UInt8} : Lead.ofByte b = .part p → Completes p rest c →
      CharBytes c (b :: rest)

theorem toNat_toUInt8 {n : Nat} (h : n < 256) : n.toUInt8.toNat = n := Nat.mod_eq_of_lt h

/-- A code point is no surrogate. -/
theorem toNat_valid (c : Char) : c.toNat < 0xd800 ∨ (0xdfff < c.toNat ∧ c.toNat < 0x110000) := c.valid

/-- The lead byte of two. -/
theorem ofByte_two {m : Nat} (hm : 2 ≤ m ∧ m < 32) : Lead.ofByte (0xc0 + m).toUInt8 = .part ⟨m, 1, 0x80, 0xbf⟩ := by
  obtain ⟨h₁, h₂⟩ := hm
  interval_cases m <;> rfl

/-- The lead byte of three bounds the byte after it, but not where the three are a character. -/
theorem ofByte_three {m t : Nat} (hm : m < 16) (ht : t < 64) (hlong : m = 0 → 0x20 ≤ t) (hplain : m = 0xd → t < 0x20) :
    ∃ least greatest, Lead.ofByte (0xe0 + m).toUInt8 = .part ⟨m, 2, least, greatest⟩ ∧
      least ≤ 0x80 + t ∧ 0x80 + t ≤ greatest := by
  interval_cases m <;> exact ⟨_, _, rfl, by omega, by omega⟩

/-- The lead byte of four does the same. -/
theorem ofByte_four {m t : Nat} (hm : m < 5) (ht : t < 64) (hlong : m = 0 → 0x10 ≤ t) (hlast : m = 4 → t < 0x10) :
    ∃ least greatest, Lead.ofByte (0xf0 + m).toUInt8 = .part ⟨m, 3, least, greatest⟩ ∧
      least ≤ 0x80 + t ∧ 0x80 + t ≤ greatest := by
  interval_cases m <;> exact ⟨_, _, rfl, by omega, by omega⟩

/-- **A character is its lead byte and what that owes.** -/
theorem charBytes_encodeChar (c : Char) : CharBytes c (encodeChar c) := by
  have hvalid := toNat_valid c
  have htail : ∀ n : Nat, (0x80 + n % 64).toUInt8.toNat = 0x80 + n % 64 := fun n => toNat_toUInt8 (by omega)
  simp only [encodeChar]
  split
  · refine .whole ?_
    rw [Lead.ofByte, toNat_toUInt8 (by omega), if_pos (by omega), Char.ofNat_toNat]
  · split
    · refine .part (ofByte_two (by omega)) (.last ?_ ?_) <;> rw [htail] <;> omega
    · split
      · obtain ⟨least, greatest, hlead, hbounds⟩ :=
          ofByte_three (m := c.toNat / 4096) (t := c.toNat / 64 % 64) (by omega) (by omega) (by omega) (by omega)
        refine .part hlead (.more ?_ (.last ?_ ?_)) <;> rw [htail]
        · exact hbounds
        · omega
        · rw [htail]
          omega
      · obtain ⟨least, greatest, hlead, hbounds⟩ :=
          ofByte_four (m := c.toNat / 262144) (t := c.toNat / 4096 % 64) (by omega) (by omega) (by omega) (by omega)
        refine .part hlead (.more ?_ (.more ?_ (.last ?_ ?_))) <;> rw [htail]
        · exact hbounds
        · omega
        · omega
        · rw [htail, htail]
          omega

/-- The bytes of a character are read as it, whatever follows. -/
theorem pieces_encodeChar (c : Char) (bs : List UInt8) :
    pieces none (encodeChar c ++ bs) = some c :: pieces none bs := by
  have h := charBytes_encodeChar c
  generalize encodeChar c = bytes at h
  cases h with
  | whole hb => simp [pieces, hb]
  | part hb hrest => simp [pieces, hb, hrest.pieces_append bs]

/-- The bytes of a character up to somewhere inside are no character. -/
theorem pieces_of_prefix_encodeChar {c : Char} {bs : List UInt8} (h : bs <+: encodeChar c) (hne : bs ≠ encodeChar c) :
    bs = [] ∨ pieces none bs = [none] := by
  have hc := charBytes_encodeChar c
  generalize encodeChar c = bytes at h hne hc
  cases hc with
  | whole hb =>
    rcases List.prefix_cons_iff.1 h with rfl | ⟨bs, rfl, h'⟩
    · exact .inl rfl
    · exact absurd (by rw [List.prefix_nil.1 h']) hne
  | part hb hrest =>
    rcases List.prefix_cons_iff.1 h with rfl | ⟨bs, rfl, h'⟩
    · exact .inl rfl
    · refine .inr ?_
      rw [pieces, hb]
      exact hrest.pieces_prefix bs h' fun heq => hne (heq ▸ rfl)

theorem encode_cons (c : Char) (cs : List Char) : encode (c :: cs) = encodeChar c ++ encode cs := List.flatMap_cons ..

theorem encode_append (cs ds : List Char) : encode (cs ++ ds) = encode cs ++ encode ds := List.flatMap_append ..

/-- The bytes of a text are read as its characters. -/
theorem pieces_encode (cs : List Char) : pieces none (encode cs) = cs.map some := by
  induction cs with
  | nil => rfl
  | cons c rest ih => rw [encode_cons, pieces_encodeChar, ih, List.map_cons]

/-- **A text is decoded from its bytes.** -/
theorem decode?_encode (cs : List Char) : decode? (encode cs) = some cs := by
  rw [decode?, pieces_encode]
  induction cs with
  | nil => rfl
  | cons c rest ih => simp [List.mapM_cons, ih]

/-- Nothing is replaced in the bytes of a text. -/
theorem decodeReplacing_encode (cs : List Char) : decodeReplacing (encode cs) = cs := by
  rw [decodeReplacing, pieces_encode, List.map_map]
  exact List.map_id cs

theorem decode?_encodeChar_append (c : Char) (bs : List UInt8) :
    decode? (encodeChar c ++ bs) = (decode? bs).map (c :: ·) := by
  rw [decode?, pieces_encodeChar, List.mapM_cons, decode?]
  cases (pieces none bs).mapM id <;> rfl

/-- **The bytes of a text, cut off anywhere, decode to what the text starts with** if they decode at all. -/
theorem prefix_of_decode? : ∀ {cs : List Char} {bs : List UInt8} {ds : List Char}, bs <+: encode cs →
    decode? bs = some ds → ds <+: cs
  | [], bs, ds, h, hd => by
    obtain rfl := List.prefix_nil.1 h
    obtain rfl := Option.some.inj hd
    exact List.prefix_rfl
  | c :: cs, bs, ds, h, hd => by
    rw [encode_cons] at h
    rcases List.prefix_or_prefix_of_prefix h (List.prefix_append (encodeChar c) (encode cs)) with hbs | hbs
    · by_cases hne : bs = encodeChar c
      · have hd' : decode? (encodeChar c ++ []) = some ds := by rw [List.append_nil, ← hne, hd]
        rw [decode?_encodeChar_append] at hd'
        obtain rfl := Option.some.inj hd'
        exact ⟨cs, rfl⟩
      · rcases pieces_of_prefix_encodeChar hbs hne with rfl | hp
        · obtain rfl := Option.some.inj hd
          exact List.nil_prefix
        · rw [decode?, hp] at hd
          cases hd
    · obtain ⟨bs, rfl⟩ := hbs
      rw [decode?_encodeChar_append, Option.map_eq_some_iff] at hd
      obtain ⟨ds, hd, rfl⟩ := hd
      exact List.cons_prefix_cons.2 ⟨rfl, prefix_of_decode? ((List.prefix_append_right_inj _).1 h) hd⟩

/-- A byte of a character beyond ASCII is beyond ASCII. -/
theorem ascii_of_mem_encodeChar {c : Char} {b : UInt8} (h : b ∈ encodeChar c) (hb : b.toNat < 0x80) :
    b.toNat = c.toNat := by
  have hvalid := toNat_valid c
  simp only [encodeChar] at h
  split at h
  · obtain rfl := List.mem_singleton.1 h
    exact toNat_toUInt8 (by omega)
  · exfalso
    split at h
    · simp only [List.mem_cons, List.not_mem_nil, or_false] at h
      rcases h with rfl | rfl <;> rw [toNat_toUInt8 (by omega)] at hb <;> omega
    · split at h <;> simp only [List.mem_cons, List.not_mem_nil, or_false] at h
      · rcases h with rfl | rfl | rfl <;> rw [toNat_toUInt8 (by omega)] at hb <;> omega
      · rcases h with rfl | rfl | rfl | rfl <;> rw [toNat_toUInt8 (by omega)] at hb <;> omega

end Text
end DocClient
