/-
# Paths below a base URL

A path is put behind the base URL, a slash before each of its names, and the whole is read as a URL. Whatever the path
is, the base URL is read as it is with one slash at its end (`Client.parse?_locate`), and each name is written so that
it is read as one segment of its own (`Percent.decode_segment`), but for two:

| the name | what becomes of its segment |
| --- | --- |
| `.` | it goes away |
| `..` | it goes away and takes the one before it along |
| any other | it is sent as it is written |

Either of the two leaves an empty segment behind where it is the last name. What comes before the names is the path of
the base URL itself, unless that ends in what is dropped at the end of a URL (`Client.leadingPath_eq_basePath`).
-/

import DocClient.Proofs.Http.Query
import Mathlib.Data.List.TakeWhile

namespace DocClient

namespace Percent

/-- A byte is read as itself, whether it stands for itself or not. -/
theorem decode_byteText {plain : UInt8 → Bool} (hplain : ∀ b, plain b → b.toNat < 0x80 ∧ b.toNat ≠ 0x25) (b : UInt8)
    (cs : List Char) : decode (byteText plain b ++ cs) = b :: decode cs := by
  rw [byteText]
  split
  · rename_i h
    obtain ⟨hlt, hne⟩ := hplain b h
    have hpercent : Char.ofNat b.toNat ≠ '%' := by
      intro heq
      have hnat := congrArg Char.toNat heq
      rw [toNat_ofNat hlt] at hnat
      exact hne hnat
    rw [List.singleton_append, decode_cons_of_ne hpercent]
    simp only [Text.encodeChar, toNat_ofNat hlt, hlt, if_true, List.singleton_append]
    congr 1
    exact UInt8.ofNat_toNat
  · exact decode_escape b cs

theorem isUnreserved_bounds {b : UInt8} (h : isUnreserved b) : b.toNat < 0x80 ∧ b.toNat ≠ 0x25 := by
  simp only [isUnreserved, isAlphanumeric, Bool.or_eq_true, Bool.and_eq_true, decide_eq_true_eq, beq_iff_eq] at h
  rcases h with ((((h | h) | h) | h) | h)
  · omega
  all_goals subst h; decide

/-- **A path segment is read back.** -/
theorem decode_segment (s : String) : decode (segment s) = Text.encode s.toList := by
  have hbytes : ∀ bytes, decode (encode isUnreserved bytes) = bytes := by
    intro bytes
    induction bytes with
    | nil => rfl
    | cons b rest ih =>
      rw [encode, List.flatMap_cons, decode_byteText fun _ => isUnreserved_bounds]
      exact congrArg (b :: ·) ih
  exact hbytes _

end Percent

/-- Texts with the same bytes are the same. -/
theorem Text.encode_inj {s t : String} (h : encode s.toList = encode t.toList) : s = t := by
  have hdecoded := congrArg decode? h
  rw [decode?_encode, decode?_encode] at hdecoded
  exact String.toList_injective (Option.some.inj hdecoded)

namespace Url

/-- A character that passes through a URL, in its path and on its own. -/
def isPathChar (c : Char) : Bool :=
  0x20 < c.toNat && c.toNat < 0x80 && !endsAuthority c && isPathPlain c.toNat.toUInt8

theorem isPathChar_of_mem_segment {name : String} {c : Char} (h : c ∈ Percent.segment name) : isPathChar c := by
  have hall : ∀ n < 256, (Percent.byteText Percent.isUnreserved n.toUInt8).all isPathChar = true := by decide +kernel
  obtain ⟨b, -, hc⟩ := List.mem_flatMap.1 h
  have hb := hall b.toNat (UInt8.toNat_lt b)
  have hbyte : b.toNat.toUInt8 = b := UInt8.ofNat_toNat
  rw [hbyte] at hb
  exact List.all_eq_true.1 hb c hc

theorem isSlash_of_isPathChar {c : Char} (h : isPathChar c) : isSlash c = false := by
  simp only [isPathChar, endsAuthority, Bool.and_eq_true, Bool.not_eq_true', Bool.or_eq_false_iff] at h
  exact h.1.2.1.1

theorem bounds_of_isPathChar {c : Char} (h : isPathChar c) : 0x20 < c.toNat ∧ c ≠ '?' ∧ c ≠ '#' := by
  simp only [isPathChar, endsAuthority, Bool.and_eq_true, Bool.not_eq_true', Bool.or_eq_false_iff,
    decide_eq_true_eq, decide_eq_false_iff_not] at h
  exact ⟨h.1.1.1, h.1.2.1.2, h.1.2.2⟩

/-- What passes through is not escaped once more. -/
theorem encode_of_isPathChar {cs : List Char} (h : ∀ c ∈ cs, isPathChar c) :
    Percent.encode isPathPlain (Text.encode cs) = cs := by
  induction cs with
  | nil => rfl
  | cons c rest ih =>
    obtain ⟨hc, hrest⟩ := List.forall_mem_cons.1 h
    simp only [isPathChar, Bool.and_eq_true, decide_eq_true_eq] at hc
    obtain ⟨⟨⟨-, hascii⟩, -⟩, hplain⟩ := hc
    have hbyte : Percent.byteText isPathPlain c.toNat.toUInt8 = [c] := by
      rw [Percent.byteText, if_pos hplain, Text.toNat_toUInt8 (by omega), Char.ofNat_toNat]
    have hbytes : Text.encodeChar c = [c.toNat.toUInt8] := by
      rw [Text.encodeChar]
      exact if_pos hascii
    have hih := ih hrest
    rw [Percent.encode] at hih ⊢
    rw [Text.encode_cons, hbytes, List.flatMap_append, List.flatMap_singleton, hbyte, hih]
    rfl

section Dots

/-- Only a letter is written in lower case as another character. -/
theorem eq_of_toLower_eq {c d : Char} (hd : d.toNat < 0x61 ∨ 0x7a < d.toNat) (h : c.toLower = d) : c = d := by
  delta Char.toLower at h
  split at h
  · rename_i hupper
    obtain ⟨hlow, hhigh⟩ := hupper
    have hval := congrArg Char.toNat h
    simp only [Char.toNat, UInt32.toNat_add, ge_iff_le, UInt32.le_iff_toNat_le] at hval hlow hhigh hd
    have hA : 'A'.val.toNat = 0x41 := rfl
    have hZ : 'Z'.val.toNat = 0x5a := rfl
    have hcase : ('a'.val - 'A'.val).toNat = 0x20 := rfl
    omega
  · exact h

theorem eq_e_of_toLower_eq {c : Char} (h : c.toLower = 'e') : c = 'e' ∨ c = 'E' := by
  delta Char.toLower at h
  split at h
  · refine .inr (Char.toNat_inj.1 ?_)
    have hval := congrArg Char.toNat h
    simp only [Char.toNat, UInt32.toNat_add] at hval ⊢
    have hlt := c.val.toNat_lt
    have he : 'e'.val.toNat = 0x65 := rfl
    have hE : 'E'.val.toNat = 0x45 := rfl
    have hcase : ('a'.val - 'A'.val).toNat = 0x20 := rfl
    omega
  · exact .inl h

/-- A dot, be it escaped, is read as a dot. -/
theorem decode_append_of_isSingleDot {dot : List Char} (h : isSingleDot dot) (cs : List Char) :
    Percent.decode (dot ++ cs) = 0x2e :: Percent.decode cs := by
  simp only [isSingleDot, Bool.or_eq_true, beq_iff_eq, List.map_eq_cons_iff, List.map_eq_nil_iff] at h
  rcases h with ⟨c, -, rfl, hc, rfl⟩ | ⟨c, -, rfl, hc, d, -, rfl, hd, e, -, rfl, he, rfl⟩
  · obtain rfl := eq_of_toLower_eq (by decide) hc
    exact Percent.decode_cons_of_ne (by decide) cs
  · obtain rfl := eq_of_toLower_eq (by decide) hc
    obtain rfl := eq_of_toLower_eq (by decide) hd
    rcases eq_e_of_toLower_eq he with rfl | rfl <;> rfl

/-- Two dots are a dot and a dot. -/
theorem exists_of_isDoubleDot {dots : List Char} (h : isDoubleDot dots) :
    ∃ a b, dots = a ++ b ∧ isSingleDot a ∧ isSingleDot b := by
  have hsplit : ∀ s t : List Char, dots.map Char.toLower = s ++ t → (s = ['.'] ∨ s = ['%', '2', 'e']) →
      (t = ['.'] ∨ t = ['%', '2', 'e']) → ∃ a b, dots = a ++ b ∧ isSingleDot a ∧ isSingleDot b := by
    intro s t hst hs ht
    obtain ⟨a, b, rfl, rfl, rfl⟩ := List.map_eq_append_iff.1 hst
    exact ⟨a, b, rfl, by simpa [isSingleDot] using hs, by simpa [isSingleDot] using ht⟩
  simp only [isDoubleDot, Bool.or_eq_true, beq_iff_eq] at h
  rcases h with ((h | h) | h) | h
  · exact hsplit ['.'] ['.'] h (.inl rfl) (.inl rfl)
  · exact hsplit ['.'] ['%', '2', 'e'] h (.inl rfl) (.inr rfl)
  · exact hsplit ['%', '2', 'e'] ['.'] h (.inr rfl) (.inl rfl)
  · exact hsplit ['%', '2', 'e'] ['%', '2', 'e'] h (.inr rfl) (.inr rfl)

/-- **Only the name `.` is written as a dot segment.** -/
theorem isSingleDot_segment {name : String} : isSingleDot (Percent.segment name) ↔ name = "." := by
  constructor
  · intro h
    have hbytes := decode_append_of_isSingleDot h []
    rw [List.append_nil, Percent.decode_segment] at hbytes
    exact Text.encode_inj hbytes
  · rintro rfl
    decide +kernel

/-- **Only the name `..` is written as a segment of two dots.** -/
theorem isDoubleDot_segment {name : String} : isDoubleDot (Percent.segment name) ↔ name = ".." := by
  constructor
  · intro h
    obtain ⟨a, b, heq, ha, hb⟩ := exists_of_isDoubleDot h
    have hbytes := Percent.decode_segment name
    rw [heq, decode_append_of_isSingleDot ha, ← List.append_nil b, decode_append_of_isSingleDot hb] at hbytes
    exact Text.encode_inj hbytes.symm
  · rintro rfl
    decide +kernel

end Dots

section Path

variable {path : List (List Char)}

/-- A name that is no dots is a segment of its own. -/
theorem pushSegment_of_ne {name : String} (hsingle : name ≠ ".") (hdouble : name ≠ "..") (last : Bool) :
    pushSegment path (Percent.segment name) last = Percent.segment name :: path := by
  rw [pushSegment, if_neg (mt isDoubleDot_segment.1 hdouble), if_neg (mt isSingleDot_segment.1 hsingle),
    encode_of_isPathChar fun _ => isPathChar_of_mem_segment]

/-- A dot goes away. -/
theorem pushSegment_dot (last : Bool) :
    pushSegment path (Percent.segment ".") last = if last then [] :: path else path := by
  rw [pushSegment, if_neg (mt isDoubleDot_segment.1 (by decide)), if_pos (isSingleDot_segment.2 rfl)]

/-- Two dots take a segment along. -/
theorem pushSegment_dots (last : Bool) :
    pushSegment path (Percent.segment "..") last = if last then [] :: path.drop 1 else path.drop 1 := by
  rw [pushSegment, if_pos (isDoubleDot_segment.2 rfl)]

/-- A path may end with a slash. -/
theorem pushSegments_empty : pushSegments path [[]] = [] :: path := rfl

/-- The segments of a path follow those before them. -/
theorem pushSegments_append {before after : List (List Char)} (hne : after ≠ []) :
    pushSegments path (before ++ after) = pushSegments (before.foldl (pushSegment · · false) path) after := by
  induction before generalizing path with
  | nil => rfl
  | cons s rest ih =>
    have hlast : (rest ++ after).isEmpty = false := by simp [hne]
    rw [List.cons_append, pushSegments, hlast, ih, List.foldl_cons]

end Path

/-- No slash comes from another character. -/
theorem slash_not_mem_encode {cs : List Char} (h : ∀ c ∈ cs, isSlash c = false) :
    '/' ∉ Percent.encode isPathPlain (Text.encode cs) := by
  intro hmem
  obtain ⟨b, hb, heq, hplain⟩ := exists_of_mem_encode ⟨by decide, by decide⟩ hmem
  obtain ⟨c, hc, hb⟩ := List.mem_flatMap.1 hb
  have hslash : '/'.toNat = c.toNat :=
    heq.symm.trans (Text.ascii_of_mem_encodeChar hb (toNat_lt_of_isPathPlain hplain).1)
  obtain rfl := Char.toNat_inj.1 hslash
  exact absurd (h _ hc) (by decide)

/-- Nothing that a text is split at is left in its pieces. -/
theorem eq_false_of_mem_splitOnP {p : Char → Bool} {cs : List Char} : ∀ s ∈ cs.splitOnP p, ∀ c ∈ s, p c = false := by
  induction cs with
  | nil => simp
  | cons d rest ih =>
    intro s hs
    rw [List.splitOnP_cons_eq_if_modifyHead] at hs
    split at hs
    · rcases List.mem_cons.1 hs with rfl | hs
      · exact fun c hc => absurd hc List.not_mem_nil
      · exact ih s hs
    · rename_i hd
      obtain ⟨first, more, hpieces⟩ := List.exists_cons_of_ne_nil (List.splitOnP_ne_nil p rest)
      rw [hpieces] at hs ih
      rcases List.mem_cons.1 hs with rfl | hs
      · exact List.forall_mem_cons.2 ⟨by simpa using hd, ih first List.mem_cons_self⟩
      · exact ih s (List.mem_cons_of_mem _ hs)

/-- The path of a URL that was read has no slash in its segments. -/
theorem slash_not_mem_path {text : List Char} {u : Url} (h : parse? text = some u) : ∀ s ∈ u.path, '/' ∉ s := by
  obtain ⟨cs, hpath⟩ := path_of_parse? h
  rw [hpath]
  intro s hs
  exact forall_mem_pushSegments (P := fun s => '/' ∉ s) List.not_mem_nil (fun _ hs => absurd hs List.not_mem_nil)
    (fun s hs => slash_not_mem_encode (eq_false_of_mem_splitOnP s hs)) s (List.mem_reverse.1 hs)

/-- What is read of a URL before its path. -/
def origin? (scheme authority : List Char) : Option Url := do
  let secure ← if scheme = "https".toList then some true else if scheme = "http".toList then some false else none
  let (user, address) := splitUser authority
  let user := user.getD []
  let name := user.takeWhile (· != ':')
  let password := user.drop (name.length + 1)
  let (hostText, portText) := splitHost address
  let host ← host? hostText
  let port ← port? (portText.getD [])
  return {
    secure
    user := name
    password := if password.isEmpty then none else some password
    host
    port := if port = some (if secure then 443 else 80) then none else port
    path := []
    query := none }

/-- The slashes after the scheme are passed over. -/
def afterScheme (cs : List Char) : List Char := (splitScheme cs).2.dropWhile isSlash

/-- A URL without query and fragment is its origin and its path. -/
theorem parse?_eq {text authority path : List Char} (hrest : afterScheme (clean text) = authority ++ path)
    (hauthority : ∀ c ∈ authority, endsAuthority c = false) (hpath : ∀ c, path.head? = some c → endsAuthority c)
    (hquery : '?' ∉ path) (hfragment : '#' ∉ path) :
    parse? text
      = (origin? (splitScheme (clean text)).1 authority).map fun u => { u with path := segments (path.drop 1) } := by
  have htake : (authority ++ path).takeWhile (fun c => !endsAuthority c) = authority := by
    rw [List.takeWhile_append_of_pos fun c hc => by rw [hauthority c hc]; rfl]
    cases path with
    | nil => exact List.append_nil _
    | cons c rest => rw [List.takeWhile_cons_of_neg (by simp [hpath c rfl]), List.append_nil]
  have hwhole : ∀ {mark : Char}, mark ∉ path → path.takeWhile (· != mark) = path := by
    intro mark hmark
    rw [← List.append_nil path, List.takeWhile_append_of_pos, List.takeWhile_nil]
    intro c hc
    exact bne_iff_ne.2 fun heq => hmark (heq ▸ hc)
  rw [afterScheme] at hrest
  rcases hscheme : splitScheme (clean text) with ⟨scheme, rest⟩
  rw [hscheme] at hrest
  simp only [parse?, origin?, Option.bind_eq_bind, Option.pure_def, hscheme, hrest, htake, List.drop_left',
    hwhole hfragment, hwhole hquery, List.drop_length]
  by_cases hsecure : scheme = "https".toList
  · simp only [if_pos hsecure, Option.bind_some, Option.map_bind, Function.comp_def, Option.map_some]
  · by_cases hplainly : scheme = "http".toList
    · simp only [if_neg hsecure, if_pos hplainly, Option.bind_some, Option.map_bind, Function.comp_def, Option.map_some]
    · simp only [if_neg hsecure, if_neg hplainly, Option.bind_none, Option.map_none]

/-- A URL that is read has a character after its scheme that is no slash. -/
theorem afterScheme_ne_nil {text : List Char} (h : (parse? text).isSome) : afterScheme (clean text) ≠ [] := by
  intro hnil
  have hempty : afterScheme (clean text) = [] ++ [] := hnil
  have hnone : parse? text = none := by
    rw [parse?_eq hempty (by simp) (by simp) (by simp) (by simp)]
    simp [origin?, splitUser, splitHost, host?]
  rw [hnone] at h
  exact nomatch h

/-- Padding is dropped up to what does not start with it. -/
theorem dropWhile_isPadding_append (start : List Char) {rest : List Char}
    (h : ∀ c, rest.head? = some c → isPadding c = false) :
    (start ++ rest).dropWhile isPadding = start.dropWhile isPadding ++ rest := by
  rw [List.dropWhile_append]
  split
  · rename_i hnil
    rw [List.isEmpty_iff.1 hnil]
    cases rest with
    | nil => rfl
    | cons c rest => exact List.dropWhile_cons_of_neg (by simp [h c rfl])
  · rfl

/-- What is left of the start of a URL. -/
def cleanStart (cs : List Char) : List Char := (cs.dropWhile isPadding).filter (!isBreak ·)

/-- A text that ends behind a slash is left as it is. -/
theorem clean_append {start rest : List Char} (h : ∀ c ∈ rest, 0x20 < c.toNat) :
    clean (start ++ '/' :: rest) = cleanStart start ++ '/' :: rest := by
  have hvisible : ∀ c ∈ '/' :: rest, 0x20 < c.toNat := List.forall_mem_cons.2 ⟨by decide, h⟩
  have hpadding : ∀ c ∈ '/' :: rest, isPadding c = false := fun c hc => by
    simpa [isPadding] using hvisible c hc
  have hbreak : ∀ c ∈ '/' :: rest, (!isBreak c) = true := fun c hc => by
    have hc := hvisible c hc
    simp only [isBreak, Bool.not_eq_true', Bool.or_eq_false_iff, decide_eq_false_iff_not]
    refine ⟨⟨?_, ?_⟩, ?_⟩ <;> rintro rfl <;> exact absurd hc (by decide)
  have hback : (start.dropWhile isPadding ++ '/' :: rest).reverse.dropWhile isPadding
      = (start.dropWhile isPadding ++ '/' :: rest).reverse := by
    obtain ⟨before, c, hlast⟩ := List.eq_nil_or_concat ('/' :: rest) |>.resolve_left (by simp)
    have hc : isPadding c = false := hpadding c (by rw [hlast]; simp)
    rw [hlast, List.concat_eq_append, ← List.append_assoc, List.reverse_concat,
      List.dropWhile_cons_of_neg (by simp [hc])]
  have hfront : (start ++ '/' :: rest).dropWhile isPadding = start.dropWhile isPadding ++ '/' :: rest :=
    dropWhile_isPadding_append start fun c hc => Option.some.inj hc ▸ rfl
  rw [clean, hfront, hback, List.reverse_reverse, List.filter_append, List.filter_eq_self.2 hbreak]
  rfl

theorem mem_of_mem_cleanStart {cs : List Char} {c : Char} (h : c ∈ cleanStart cs) : c ∈ cs :=
  List.dropWhile_subset _ (List.mem_of_mem_filter h)

theorem mem_of_mem_afterScheme {cs : List Char} {c : Char} (h : c ∈ afterScheme cs) : c ∈ cs :=
  List.mem_of_mem_drop (List.dropWhile_subset _ h)

/-- The scheme ends before anything that is added, if something follows it. -/
theorem splitScheme_append {cs : List Char} (h : (splitScheme cs).2 ≠ []) (ds : List Char) :
    splitScheme (cs ++ ds) = ((splitScheme cs).1, (splitScheme cs).2 ++ ds) := by
  have hlength : (cs.takeWhile (· != ':')).length + 1 ≤ cs.length :=
    Nat.le_of_lt (List.length_lt_of_drop_ne_nil h)
  have htake : (cs ++ ds).takeWhile (· != ':') = cs.takeWhile (· != ':') := by
    rw [List.takeWhile_append, if_neg (by omega)]
  simp only [splitScheme, htake, List.drop_append_of_le_length hlength]

theorem afterScheme_append {cs : List Char} (h : afterScheme cs ≠ []) (ds : List Char) :
    afterScheme (cs ++ ds) = afterScheme cs ++ ds := by
  have hscheme : (splitScheme cs).2 ≠ [] := by
    intro hnil
    rw [afterScheme, hnil] at h
    exact h rfl
  rw [afterScheme, splitScheme_append hscheme, List.dropWhile_append, if_neg (by simpa [afterScheme] using h)]
  rfl

/-- The segments of a path that something is put behind. -/
def trail (path : List Char) : List (List Char) :=
  match path with
  | [] => []
  | _ :: rest => rest.splitOnP isSlash

theorem segments_append (path cs : List Char) :
    segments ((path ++ '/' :: cs).drop 1) = (pushSegments [] (trail path ++ cs.splitOnP isSlash)).reverse := by
  cases path with
  | nil => rfl
  | cons c rest =>
    rw [segments, List.cons_append, List.drop_one, List.tail_cons, List.splitOnP_append_cons _ _ (by decide)]
    rfl

/-- A text is an authority and what follows it. -/
theorem exists_authority (cs : List Char) : ∃ authority path, cs = authority ++ path
    ∧ (∀ c ∈ authority, endsAuthority c = false) ∧ ∀ c, path.head? = some c → endsAuthority c := by
  have hsplit := (List.takeWhile_append_dropWhile (p := (!endsAuthority ·)) (l := cs)).symm
  refine ⟨_, _, hsplit, ?_, ?_⟩
  · exact fun c hc => by simpa using List.all_eq_true.1 List.all_takeWhile c hc
  · intro c hc
    have hhead := List.head?_dropWhile_not (!endsAuthority ·) cs
    rw [hc] at hhead
    simpa using hhead

/-- A text ends in what counts: neither in what may surround a URL nor in a slash. -/
def EndsPlainly (cs : List Char) : Prop := ∀ c, cs.getLast? = some c → isPadding c = false ∧ isSlash c = false

theorem EndsPlainly.of_suffix {cs tail : List Char} (h : EndsPlainly cs) (hsuffix : tail <:+ cs) : EndsPlainly tail := by
  intro c hc
  obtain ⟨start, rfl⟩ := hsuffix
  exact h c (by rw [List.getLast?_append, hc, Option.some_or])

/-- What ends in what counts is not touched at its end. -/
theorem clean_of_endsPlainly {cs : List Char} (h : EndsPlainly cs) :
    clean cs = cleanStart cs ∧ EndsPlainly (cleanStart cs) := by
  rcases List.eq_nil_or_concat cs with rfl | ⟨start, c, rfl⟩
  · exact ⟨rfl, h⟩
  · rw [List.concat_eq_append] at h ⊢
    obtain ⟨hpadding, hslash⟩ := h c List.getLast?_concat
    have hbreak : (!isBreak c) = true := by
      simp only [isPadding, decide_eq_false_iff_not] at hpadding
      simp only [isBreak, Bool.not_eq_true', Bool.or_eq_false_iff, decide_eq_false_iff_not]
      refine ⟨⟨?_, ?_⟩, ?_⟩ <;> rintro rfl <;> exact hpadding (by decide)
    have hfront : (start ++ [c]).dropWhile isPadding = start.dropWhile isPadding ++ [c] :=
      dropWhile_isPadding_append start fun d hd => Option.some.inj hd ▸ hpadding
    have hstart : cleanStart (start ++ [c]) = (start.dropWhile isPadding).filter (!isBreak ·) ++ [c] := by
      rw [cleanStart, hfront, List.filter_append]
      exact congrArg _ (List.filter_eq_self.2 (by simpa using hbreak))
    refine ⟨?_, fun d hd => ?_⟩
    · rw [clean, cleanStart, hfront, List.reverse_concat, List.dropWhile_cons_of_neg (by simp [hpadding]),
        List.reverse_cons, List.reverse_reverse]
    · rw [hstart, List.getLast?_concat] at hd
      exact Option.some.inj hd ▸ ⟨hpadding, hslash⟩

theorem afterScheme_suffix (cs : List Char) : afterScheme cs <:+ cs :=
  (List.dropWhile_suffix _).trans (List.drop_suffix _ _)

/-- The last piece of a text that does not end where it is split has a character. -/
theorem splitOnP_concat {p : Char → Bool} {c : Char} (hc : p c = false) (cs : List Char) :
    ∃ before last, (cs ++ [c]).splitOnP p = before ++ [last ++ [c]] := by
  induction cs with
  | nil => exact ⟨[], [], List.splitOnP_eq_singleton (by simpa using hc)⟩
  | cons d rest ih =>
    obtain ⟨before, last, hpieces⟩ := ih
    rw [List.cons_append, List.splitOnP_cons_eq_if_modifyHead, hpieces]
    split
    · exact ⟨[] :: before, last, rfl⟩
    · cases before with
      | nil => exact ⟨[], d :: last, rfl⟩
      | cons first more => exact ⟨(d :: first) :: more, last, rfl⟩

/-- Nothing comes of no character only. -/
theorem encode_ne_nil {plain : UInt8 → Bool} {cs : List Char} (h : cs ≠ []) :
    Percent.encode plain (Text.encode cs) ≠ [] := by
  intro hnil
  have hbytes : Text.encode cs = Text.encode [] := by
    refine List.eq_nil_iff_forall_not_mem.2 fun b hb => ?_
    have hb := List.flatMap_eq_nil_iff.1 hnil b hb
    rw [Percent.byteText] at hb
    split at hb <;> exact absurd hb (List.cons_ne_nil _ _)
  have hdecoded := congrArg Text.decode? hbytes
  rw [Text.decode?_encode, Text.decode?_encode] at hdecoded
  exact h (Option.some.inj hdecoded)

/-- A path without the empty segment that a slash or dots leave at its end. -/
def withoutSlash (path : List (List Char)) : List (List Char) :=
  if path.getLast? = some [] then path.dropLast else path

/-- **The path of a base URL is what other segments are put behind**, but for the empty segment at its end. -/
theorem withoutSlash_segments {path : List Char} (hhead : ∀ c, path.head? = some c → isSlash c) (h : EndsPlainly path) :
    withoutSlash (segments (path.drop 1)) = ((trail path).foldl (pushSegment · · false) []).reverse := by
  cases path with
  | nil => rfl
  | cons slash rest =>
    rcases List.eq_nil_or_concat rest with rfl | ⟨start, c, rfl⟩
    · exact absurd (hhead slash rfl) (by simp [(h slash rfl).2])
    · rw [List.concat_eq_append] at h ⊢
      have hlast : (slash :: (start ++ [c])).getLast? = some c := List.getLast?_concat (l := slash :: start)
      obtain ⟨before, last, hpieces⟩ := splitOnP_concat (h c hlast).2 start
      have hsegments : segments ((slash :: (start ++ [c])).drop 1)
          = (pushSegment (before.foldl (pushSegment · · false) []) (last ++ [c]) true).reverse := by
        rw [List.drop_one, List.tail_cons, segments, hpieces, pushSegments_append (List.cons_ne_nil _ _)]
        rfl
      rw [hsegments, trail, hpieces, List.foldl_append, List.foldl_cons, List.foldl_nil]
      generalize before.foldl (pushSegment · · false) [] = pushed
      rw [pushSegment, pushSegment]
      split
      · simp [withoutSlash]
      · split
        · simp [withoutSlash]
        · have hne : Percent.encode isPathPlain (Text.encode (last ++ [c])) ≠ [] := encode_ne_nil (by simp)
          simp [withoutSlash, hne]

/-- **What stands behind a base URL adds segments to its path**, and nothing else of the URL depends on it. -/
theorem exists_parse?_append {base : List Char} (hhost : afterScheme (cleanStart base) ≠ []) (hquery : '?' ∉ base)
    (hfragment : '#' ∉ base) :
    ∃ (origin : Option Url) (path : List Char), (∀ c, path.head? = some c → isSlash c)
      ∧ (EndsPlainly base →
        EndsPlainly path ∧ parse? base = origin.map fun u => { u with path := segments (path.drop 1) })
      ∧ ∀ cs : List Char, (∀ c ∈ cs, 0x20 < c.toNat ∧ c ≠ '?' ∧ c ≠ '#') →
        parse? (base ++ '/' :: cs)
          = origin.map fun u => { u with path := (pushSegments [] (trail path ++ cs.splitOnP isSlash)).reverse } := by
  obtain ⟨authority, path, hsplit, hauthority, hpath⟩ := exists_authority (afterScheme (cleanStart base))
  have hscheme : (splitScheme (cleanStart base)).2 ≠ [] := by
    intro hnil
    rw [afterScheme, hnil] at hhost
    exact hhost rfl
  have hmem : ∀ c ∈ path, c ∈ base := by
    intro c hc
    refine mem_of_mem_cleanStart (mem_of_mem_afterScheme ?_)
    rw [hsplit]
    exact List.mem_append_right _ hc
  refine ⟨origin? (splitScheme (cleanStart base)).1 authority, path, fun c hc => ?_, fun hends => ?_, fun cs hcs => ?_⟩
  · have hbase := hmem c (List.mem_of_mem_head? hc)
    have hends := hpath c hc
    simp only [endsAuthority, Bool.or_eq_true, decide_eq_true_eq] at hends
    rcases hends with (hslash | rfl) | rfl
    · exact hslash
    · exact absurd hbase hquery
    · exact absurd hbase hfragment
  · obtain ⟨hclean, hstart⟩ := clean_of_endsPlainly hends
    refine ⟨(hstart.of_suffix (afterScheme_suffix _)).of_suffix (hsplit ▸ List.suffix_append _ _), ?_⟩
    have hrest : afterScheme (clean base) = authority ++ path := by rw [hclean, hsplit]
    rw [parse?_eq hrest hauthority hpath (fun h => hquery (hmem _ h)) (fun h => hfragment (hmem _ h)), hclean]
  · have hnone : ∀ {mark : Char}, mark ∉ base → (∀ c ∈ cs, c ≠ mark) → '/' ≠ mark → mark ∉ path ++ '/' :: cs := by
      intro mark hmark hcs hslash hin
      rcases List.mem_append.1 hin with hin | hin
      · exact hmark (hmem _ hin)
      · rcases List.mem_cons.1 hin with heq | hin
        · exact hslash heq.symm
        · exact hcs _ hin rfl
    have hclean : clean (base ++ '/' :: cs) = cleanStart base ++ '/' :: cs := clean_append fun c hc => (hcs c hc).1
    have hrest : afterScheme (clean (base ++ '/' :: cs)) = authority ++ (path ++ '/' :: cs) := by
      rw [hclean, afterScheme_append hhost, hsplit, List.append_assoc]
    have hhead : ∀ c, (path ++ '/' :: cs).head? = some c → endsAuthority c := by
      intro c hc
      cases path with
      | nil => exact Option.some.inj hc ▸ rfl
      | cons d rest => exact hpath c hc
    rw [parse?_eq hrest hauthority hhead (hnone hquery (fun c hc => (hcs c hc).2.1) (by decide))
      (hnone hfragment (fun c hc => (hcs c hc).2.2) (by decide)), hclean, splitScheme_append hscheme, segments_append]

/-- Reading a text from both ends leaves a part of what reading it from its start leaves. -/
theorem clean_prefix (base : List Char) (n : Nat) :
    clean (base ++ List.replicate n '/') <+: cleanStart base ++ List.replicate n '/' := by
  have hfront : (base ++ List.replicate n '/').dropWhile isPadding
      = base.dropWhile isPadding ++ List.replicate n '/' :=
    dropWhile_isPadding_append base fun c hc => by
      rw [List.eq_of_mem_replicate (List.mem_of_head? hc)]
      rfl
  have hback : (((base ++ List.replicate n '/').dropWhile isPadding).reverse.dropWhile isPadding).reverse
      <+: base.dropWhile isPadding ++ List.replicate n '/' := by
    rw [← hfront]
    exact List.reverse_suffix.1 (by simpa using List.dropWhile_suffix isPadding)
  have hslashes : (List.replicate n '/').filter (!isBreak ·) = List.replicate n '/' :=
    List.filter_eq_self.2 fun c hc => by rw [List.eq_of_mem_replicate hc]; rfl
  have hfilter := hback.filter (!isBreak ·)
  rwa [List.filter_append, hslashes] at hfilter

/-- Slashes do not give a URL a host. -/
theorem afterScheme_append_replicate {cs : List Char} (h : afterScheme cs = []) (n : Nat) :
    afterScheme (cs ++ List.replicate n '/') = [] := by
  have hcs := List.dropWhile_eq_nil_iff.1 h
  refine List.dropWhile_eq_nil_iff.2 fun c hc => ?_
  have hmem : c ∈ (splitScheme cs).2 ∨ c ∈ List.replicate n '/' := by
    simp only [splitScheme] at hc ⊢
    rw [List.drop_append] at hc
    rcases List.mem_append.1 hc with hc | hc
    · left
      rw [List.takeWhile_append] at hc
      split at hc
      · rename_i hall
        rw [List.drop_eq_nil_of_le (by rw [List.length_append]; omega)] at hc
        exact absurd hc List.not_mem_nil
      · exact hc
    · exact .inr (List.mem_of_mem_drop hc)
  rcases hmem with hc | hc
  · exact hcs c hc
  · rw [List.eq_of_mem_replicate hc]
    rfl

/-- A base URL has a host also without the slashes at its end. -/
theorem afterScheme_cleanStart_ne_nil {base : List Char} {n : Nat}
    (h : (parse? (base ++ List.replicate n '/')).isSome) : afterScheme (cleanStart base) ≠ [] := by
  obtain ⟨more, hmore⟩ := clean_prefix base n
  have hall := afterScheme_append (afterScheme_ne_nil h) more
  rw [hmore] at hall
  intro hnil
  rw [afterScheme_append_replicate hnil] at hall
  exact afterScheme_ne_nil h (List.append_eq_nil_iff.1 hall.symm).1

end Url

/-- The slashes at the end of a base URL are left out. -/
theorem Settings.exists_baseUrl_eq (s : Settings) :
    ∃ n, s.baseUrl.toList = s.server.toList ++ List.replicate n '/' := by
  refine ⟨(s.baseUrl.toList.reverse.takeWhile (· = '/')).length, ?_⟩
  have hslashes : s.baseUrl.toList.reverse.takeWhile (· = '/')
      = List.replicate (s.baseUrl.toList.reverse.takeWhile (· = '/')).length '/' :=
    List.eq_replicate_iff.2 ⟨rfl, fun c hc => by simpa using List.all_eq_true.1 List.all_takeWhile c hc⟩
  rw [← List.reverse_replicate, ← hslashes, server, String.toList_ofList, ← List.reverse_append,
    List.takeWhile_append_dropWhile, List.reverse_reverse]

/-- What is put behind a base URL is put behind its path, its own slashes left out. -/
theorem Settings.exists_parse?_server {s : Settings} (hbase : (Url.parse? s.baseUrl.toList).isSome)
    (hquery : '?' ∉ s.baseUrl.toList) (hfragment : '#' ∉ s.baseUrl.toList) :
    ∃ (origin : Option Url) (path : List Char), (∀ c, path.head? = some c → Url.isSlash c)
      ∧ (Url.EndsPlainly s.server.toList → Url.EndsPlainly path
        ∧ Url.parse? s.server.toList = origin.map fun u => { u with path := Url.segments (path.drop 1) })
      ∧ ∀ cs : List Char, (∀ c ∈ cs, 0x20 < c.toNat ∧ c ≠ '?' ∧ c ≠ '#') →
        Url.parse? (s.server.toList ++ '/' :: cs) = origin.map fun u =>
          { u with path := (Url.pushSegments [] (Url.trail path ++ cs.splitOnP Url.isSlash)).reverse } := by
  obtain ⟨n, hn⟩ := s.exists_baseUrl_eq
  have hmark : ∀ {mark}, mark ∉ s.baseUrl.toList → mark ∉ s.server.toList := by
    intro mark hmark hmem
    exact hmark (hn ▸ List.mem_append_left _ hmem)
  exact Url.exists_parse?_append (Url.afterScheme_cleanStart_ne_nil (hn ▸ hbase)) (hmark hquery) (hmark hfragment)

namespace Request

/-- The segments of the place that a request is for. -/
def segments (r : Request) : List (List Char) := (r.place.splitOn '/').drop 1

/-- The segments of a request are those that its place is made of. -/
theorem segments_eq {r : Request} {path : List (List Char)} (hplace : r.place = path.flatMap fun s => '/' :: s)
    (hslash : ∀ s ∈ path, '/' ∉ s) : r.segments = path := by
  have hsplit : ∀ (path : List (List Char)) (s : List Char), '/' ∉ s → (∀ s ∈ path, '/' ∉ s) →
      (s ++ path.flatMap fun s => '/' :: s).splitOn '/' = s :: path := by
    intro path
    induction path with
    | nil => exact fun s hs _ => by rw [List.flatMap_nil, List.append_nil, List.splitOn_eq_singleton hs]
    | cons next rest ih =>
      intro s hs hpath
      obtain ⟨hnext, hrest⟩ := List.forall_mem_cons.1 hpath
      rw [List.flatMap_cons, List.cons_append, List.splitOn_append_cons_self_of_not_mem hs, ih next hnext hrest]
  have hpath := hsplit path [] List.not_mem_nil hslash
  rw [List.nil_append] at hpath
  rw [segments, hplace, hpath]
  rfl

end Request

namespace Client

/-- The names of a path are its segments. -/
theorem splitOnP_names (name : String) (rest : List String) :
    (Percent.segment name ++ rest.flatMap fun n => '/' :: Percent.segment n).splitOnP Url.isSlash
      = (name :: rest).map Percent.segment := by
  have hsegment : ∀ name : String, ∀ c ∈ Percent.segment name, Url.isSlash c = false :=
    fun _ _ hc => Url.isSlash_of_isPathChar (Url.isPathChar_of_mem_segment hc)
  induction rest generalizing name with
  | nil => rw [List.flatMap_nil, List.append_nil, List.splitOnP_eq_singleton (hsegment name)]; rfl
  | cons next rest ih =>
    rw [List.flatMap_cons, List.cons_append, List.splitOnP_append_cons_of_forall_mem (hsegment name) _ (by decide), ih]
    rfl

/-- The base URL with a slash at its end. -/
theorem locate_empty (c : Client) : c.locate [""] = c.settings.server.toList ++ ['/'] := by
  simp [locate, Percent.segment, Percent.encode, Text.encode]

/-- **A path is put behind the base URL**, which is read the same whatever the path is: its own segments come first. -/
theorem parse?_locate {c : Client} (hbase : (Url.parse? c.settings.baseUrl.toList).isSome)
    (hquery : '?' ∉ c.settings.baseUrl.toList) (hfragment : '#' ∉ c.settings.baseUrl.toList) {names : List String}
    (hne : names ≠ []) :
    Url.parse? (c.locate names) = (Url.parse? (c.locate [""])).map fun base =>
      { base with path := (Url.pushSegments base.path.dropLast.reverse (names.map Percent.segment)).reverse } := by
  obtain ⟨origin, path, -, -, hparse⟩ := c.settings.exists_parse?_server hbase hquery hfragment
  obtain ⟨name, rest, rfl⟩ := List.exists_cons_of_ne_nil hne
  have hchars : ∀ c ∈ Percent.segment name ++ rest.flatMap fun n => '/' :: Percent.segment n,
      0x20 < c.toNat ∧ c ≠ '?' ∧ c ≠ '#' := by
    have hsegment : ∀ name : String, ∀ c ∈ Percent.segment name, 0x20 < c.toNat ∧ c ≠ '?' ∧ c ≠ '#' :=
      fun _ _ hc => Url.bounds_of_isPathChar (Url.isPathChar_of_mem_segment hc)
    intro c hc
    rcases List.mem_append.1 hc with hc | hc
    · exact hsegment _ c hc
    · obtain ⟨next, -, hc⟩ := List.mem_flatMap.1 hc
      rcases List.mem_cons.1 hc with rfl | hc
      · decide
      · exact hsegment _ c hc
  have hnames := hparse _ hchars
  have hempty := hparse [] (by simp)
  rw [splitOnP_names, Url.pushSegments_append (by simp)] at hnames
  rw [List.splitOnP_nil, Url.pushSegments_append (by simp)] at hempty
  have hlocate : c.locate (name :: rest) = c.settings.server.toList
      ++ '/' :: (Percent.segment name ++ rest.flatMap fun n => '/' :: Percent.segment n) := by
    rw [locate, List.flatMap_cons, List.cons_append]
  rw [hlocate, hnames, locate_empty, hempty, Option.map_map]
  refine congrArg origin.map (funext fun base => ?_)
  simp only [Function.comp_apply, Url.pushSegments_empty, List.reverse_cons, List.dropLast_concat, List.reverse_reverse]

/-- The segments that come first in the path of every request. -/
def leadingPath (c : Client) : List (List Char) := ((Url.parse? (c.locate [""])).elim [] Url.path).dropLast

/-- The segments of the base URL: those of its path, without the empty one at its end. -/
def basePath (c : Client) : List (List Char) :=
  Url.withoutSlash ((Url.parse? c.settings.server.toList).elim [] Url.path)

/-- **Every request is for a place below the base URL**, if the base URL ends in what counts; white space at its end
would become a part of the path. -/
theorem leadingPath_eq_basePath {c : Client} (hbase : (Url.parse? c.settings.baseUrl.toList).isSome)
    (hquery : '?' ∉ c.settings.baseUrl.toList) (hfragment : '#' ∉ c.settings.baseUrl.toList)
    (hends : Url.EndsPlainly c.settings.server.toList) : c.leadingPath = c.basePath := by
  obtain ⟨origin, path, hhead, hown, hparse⟩ := c.settings.exists_parse?_server hbase hquery hfragment
  obtain ⟨hplain, hserver⟩ := hown hends
  have hempty := hparse [] (by simp)
  rw [List.splitOnP_nil, Url.pushSegments_append (by simp)] at hempty
  rw [leadingPath, basePath, locate_empty, hempty, hserver]
  cases origin with
  | none => rfl
  | some u =>
    rw [Option.map_some, Option.map_some, Option.elim_some, Option.elim_some, Url.withoutSlash_segments hhead hplain,
      Url.pushSegments_empty, List.reverse_cons, List.dropLast_concat]

/-- **The segments of a request** are those of the base URL and then the names of its path, but for their dots. -/
theorem segments_of_request? {c : Client} (hbase : (Url.parse? c.settings.baseUrl.toList).isSome)
    (hquery : '?' ∉ c.settings.baseUrl.toList) (hfragment : '#' ∉ c.settings.baseUrl.toList) {names : List String}
    (hne : names ≠ []) {method : Method} {options : Option (List (String × String))} {body : Option Json} {r : Request}
    (h : c.request? method names options body = some r) :
    r.segments = (Url.pushSegments c.leadingPath.reverse (names.map Percent.segment)).reverse := by
  obtain ⟨-, -, hplace⟩ := sent_of_request? h
  obtain ⟨u, hu, -⟩ := Option.map_eq_some_iff.1 h
  rw [place, hu, Option.elim_some] at hplace
  rw [Request.segments_eq hplace (Url.slash_not_mem_path hu)]
  rw [parse?_locate hbase hquery hfragment hne] at hu
  obtain ⟨base, hlocate, rfl⟩ := Option.map_eq_some_iff.1 hu
  rw [leadingPath, hlocate]
  rfl

/-- A path is one of a URL just if the base URL with a slash at its end is one. -/
theorem isSome_request? {c : Client} (hbase : (Url.parse? c.settings.baseUrl.toList).isSome)
    (hquery : '?' ∉ c.settings.baseUrl.toList) (hfragment : '#' ∉ c.settings.baseUrl.toList) {names : List String}
    (hne : names ≠ []) (method : Method) (pairs : Option (List (String × String))) (body : Option Json) :
    (c.request? method names pairs body).isSome = (Url.parse? (c.locate [""])).isSome := by
  rw [request?, Option.isSome_map, parse?_locate hbase hquery hfragment hne, Option.isSome_map]

end Client
end DocClient
