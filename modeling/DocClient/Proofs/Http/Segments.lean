/-
# The text of a path below a base URL

A URL is a text before it is read, and that text says which path it was made for: the slashes that were put between the
names are the only ones behind the base URL, since no name is written with one, and what stands between two of them
spells the bytes of one name (`Client.locate_told_apart`). What reading a URL does to a path, where it is not so, comes
after that.

| of a name | what stands for it |
| --- | --- |
| an ASCII letter or digit, `-`, `_`, `.`, `~` | itself |
| any other byte of its UTF-8 form | `%` and two hex digits |

`Percent.Spells` says so without reading or writing anything. A text spells at most one list of bytes, the one that it
is decoded to (`Percent.Spells.decode_eq`).
-/

import DocClient.Proofs.Http.Location
import Mathlib

namespace DocClient

namespace Text

/-- The bytes of a character are its UTF-8 form. -/
theorem encodeChar_eq (c : Char) : encodeChar c = String.utf8EncodeChar c := by
  have hvalid := toNat_valid c
  have hval : c.val.toNat = c.toNat := rfl
  have hone : c.toNat < 0x80 ↔ c.toNat ≤ 127 := Nat.lt_succ_iff
  have htwo : c.toNat < 0x800 ↔ c.toNat ≤ 2047 := Nat.lt_succ_iff
  have hthree : c.toNat < 0x10000 ↔ c.toNat ≤ 65535 := Nat.lt_succ_iff
  have hlast : 0x80 + c.toNat % 64 = c.toNat % 64 + 128 := Nat.add_comm ..
  have hsecond : 0x80 + c.toNat / 64 % 64 = c.toNat / 64 % 64 + 128 := Nat.add_comm ..
  have hthird : 0x80 + c.toNat / 4096 % 64 = c.toNat / 4096 % 64 + 128 := Nat.add_comm ..
  simp only [encodeChar, String.utf8EncodeChar, hval, hone, htwo, hthree, hlast, hsecond, hthird]
  -- the lead byte is written with a remainder or without, which its range makes the same
  split
  · rfl
  · split
    · have hlead : 0xc0 + c.toNat / 64 = c.toNat / 64 % 32 + 192 := by omega
      rw [hlead]
    · split
      · have hlead : 0xe0 + c.toNat / 4096 = c.toNat / 4096 % 16 + 224 := by omega
        rw [hlead]
      · have hlead : 0xf0 + c.toNat / 262144 = c.toNat / 262144 % 8 + 240 := by omega
        rw [hlead]

/-- **The bytes of a text are its UTF-8 form.** -/
theorem toByteArray_encode (s : String) : (encode s.toList).toByteArray = s.toUTF8 := by
  have hencode : encode s.toList = s.toList.flatMap String.utf8EncodeChar := by
    rw [encode, funext encodeChar_eq]
  rw [hencode]
  exact String.utf8Encode_toList

end Text

namespace Percent

/-- A character that stands for itself in a segment. -/
def IsUnreservedChar (c : Char) : Prop := c.isAlphanum ∨ c ∈ ['-', '_', '.', '~']

/-- **A text spells bytes** if it is made of characters that stand for themselves and of `%` with two hex digits. -/
inductive Spells : List Char → List UInt8 → Prop
  | nil : Spells [] []
  | plain {c : Char} {cs : List Char} {bytes : List UInt8} (h : IsUnreservedChar c) (rest : Spells cs bytes) :
    Spells (c :: cs) (c.toNat.toUInt8 :: bytes)
  | escape {d e : Char} {high low : Nat} {cs : List Char} {bytes : List UInt8} (hd : hexValue? d = some high)
    (he : hexValue? e = some low) (rest : Spells cs bytes) :
    Spells ('%' :: d :: e :: cs) ((high * 16 + low).toUInt8 :: bytes)

instance : DecidablePred IsUnreservedChar := fun c =>
  inferInstanceAs (Decidable (c.isAlphanum ∨ c ∈ ['-', '_', '.', '~']))

theorem IsUnreservedChar.bounds {c : Char} (h : IsUnreservedChar c) : c.toNat < 0x80 ∧ c ≠ '%' := by
  have hpercent : ¬ IsUnreservedChar '%' := by decide
  refine ⟨?_, fun hc => hpercent (hc ▸ h)⟩
  rcases h with h | h
  · simp only [Char.isAlphanum, Char.isAlpha, Char.isUpper, Char.isLower, Char.isDigit, Bool.or_eq_true,
      Bool.and_eq_true, decide_eq_true_eq, UInt32.le_iff_toNat_le, ge_iff_le] at h
    have hz : 'z'.val.toNat = 0x7a := rfl
    have hZ : 'Z'.val.toNat = 0x5a := rfl
    have hnine : '9'.val.toNat = 0x39 := rfl
    simp only [Char.toNat]
    omega
  · simp only [List.mem_cons, List.not_mem_nil, or_false] at h
    rcases h with rfl | rfl | rfl | rfl <;> decide

/-- **A text is decoded to the bytes that it spells.** -/
theorem Spells.decode_eq {cs : List Char} {bytes : List UInt8} (h : Spells cs bytes) : decode cs = bytes := by
  induction h with
  | nil => rfl
  | @plain c cs bytes hc _ ih =>
    obtain ⟨hascii, hne⟩ := hc.bounds
    rw [decode_cons_of_ne hne, ih, Text.encodeChar]
    simp only [hascii, if_true, List.singleton_append]
  | @escape d e high low cs bytes hd he _ ih =>
    rw [decode, if_pos rfl, hd, he, ih]

theorem spells_byteText (b : UInt8) {cs : List Char} {bytes : List UInt8} (rest : Spells cs bytes) :
    Spells (byteText isUnreserved b ++ cs) (b :: bytes) := by
  have hb : b.toNat < 256 := UInt8.toNat_lt b
  have hbyte : b.toNat.toUInt8 = b := UInt8.ofNat_toNat
  have hall : ∀ n < 256, isUnreserved n.toUInt8 → IsUnreservedChar (Char.ofNat n) := by decide +kernel
  rw [byteText]
  split
  · rename_i hplain
    have hnat : (Char.ofNat b.toNat).toNat = b.toNat := toNat_ofNat (isUnreserved_bounds hplain).1
    have hchar : IsUnreservedChar (Char.ofNat b.toNat) := hall _ hb (hbyte.symm ▸ hplain)
    have hspells := Spells.plain hchar rest
    rwa [hnat, hbyte] at hspells
  · have hspells := Spells.escape (hexValue?_hexDigit (n := b.toNat / 16) (by omega))
      (hexValue?_hexDigit (n := b.toNat % 16) (by omega)) rest
    have hsum : b.toNat / 16 * 16 + b.toNat % 16 = b.toNat := by omega
    rwa [hsum, hbyte] at hspells

/-- **A name spells its bytes.** -/
theorem spells_segment (name : String) : Spells (segment name) (Text.encode name.toList) := by
  rw [segment]
  induction Text.encode name.toList with
  | nil => exact .nil
  | cons b rest ih =>
    rw [encode, List.flatMap_cons]
    exact spells_byteText b ih

/-- Names with the same segment are the same. -/
theorem segment_injective : Function.Injective segment := by
  intro name name' h
  have hbytes := congrArg decode h
  rw [decode_segment, decode_segment] at hbytes
  exact Text.encode_inj hbytes

/-- A name that looks like an escape is not the name that the escape stands for, and the empty name is empty text. -/
example : segment "%2F" = "%252F".toList ∧ segment "/" = "%2F".toList ∧ segment "" = [] := by decide

end Percent

namespace Client

variable (c : Client)

/-- Names are told by the text that they make with a slash before each. -/
theorem eq_of_flatMap_segment {path path' : List String}
    (h : (path.flatMap fun name => '/' :: Percent.segment name)
      = path'.flatMap fun name => '/' :: Percent.segment name) : path = path' := by
  match path, path', h with
  | [], [], _ => rfl
  | [], name :: rest, h | name :: rest, [], h => simp at h
  | name :: rest, name' :: rest', h =>
    rw [List.flatMap_cons, List.flatMap_cons, List.cons_append, List.cons_append] at h
    have hnames := congrArg (List.splitOnP Url.isSlash) (List.cons.inj h).2
    rw [splitOnP_names, splitOnP_names] at hnames
    exact List.map_injective_iff.2 Percent.segment_injective hnames

/-- **The text of a URL says which path it was made for.** -/
theorem locate_inj {path path' : List String} : c.locate path = c.locate path' ↔ path = path' :=
  ⟨fun h => eq_of_flatMap_segment (List.append_cancel_left h), congrArg c.locate⟩

/-- **The text of a URL says which path it was made for, and each of its segments which name.** Whatever the base URL
is, two paths have the same text below it only if they are the same names in the same order, and the text that stands
for a name is made of unreserved characters and of escapes of two hex digits, which spell the bytes of the name and are
decoded to them. -/
theorem locate_told_apart :
    (∀ path path' : List String, c.locate path = c.locate path' ↔ path = path')
    ∧ ∀ name : String, ∃ bytes : List UInt8, bytes.toByteArray = name.toUTF8
      ∧ Percent.Spells (Percent.segment name) bytes ∧ Percent.decode (Percent.segment name) = bytes :=
  ⟨fun _ _ => c.locate_inj, fun name => ⟨_, Text.toByteArray_encode name, Percent.spells_segment name,
    Percent.decode_segment name⟩⟩

end Client
end DocClient
