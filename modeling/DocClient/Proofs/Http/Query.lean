/-
# What a server reads off a request

A server takes a request apart the way a form is read: the target up to its first `?` names the place, what follows is
the query, and the query is a list of pairs. The client puts its own pairs after those that the base URL already has, so
of a name given twice the last value is the client's.

| of the target | read as |
| --- | --- |
| up to the first `?` | `Request.place` |
| after it | `Request.pairs`, decoded |

Text goes through this unchanged: a byte of a name or value is written so that it is read as the byte it is
(`Percent.decode_formByte`), and no byte is written with a character that separates pairs or a name from its value.
-/

import DocClient.Client
import DocClient.Proofs.Text.Utf8

namespace DocClient

namespace Percent

theorem hexValue?_hexDigit {n : Nat} (h : n < 16) : hexValue? (hexDigit n) = some n := by
  interval_cases n <;> rfl

/-- A hex digit is none of the characters with a meaning in a query. -/
theorem hexDigit_ne {n : Nat} (h : n < 16) {c : Char} (hc : c ∈ ['%', '+', '&', '=', '?']) : hexDigit n ≠ c := by
  have hnone : ∀ n < 16, hexDigit n ∉ ['%', '+', '&', '=', '?'] := by decide
  rintro rfl
  exact hnone n h hc

/-- Any character but a `%` stands for its own bytes. -/
theorem decode_cons_of_ne {c : Char} (h : c ≠ '%') (cs : List Char) :
    decode (c :: cs) = Text.encodeChar c ++ decode cs := by
  match cs with
  | [] => simp [decode]
  | [d] => simp [decode]
  | d :: e :: rest => rw [decode, if_neg h]

/-- An escape stands for its byte. -/
theorem decode_escape (b : UInt8) (cs : List Char) : decode (escape b ++ cs) = b :: decode cs := by
  have hb : b.toNat < 256 := UInt8.toNat_lt b
  simp only [escape, List.cons_append, List.nil_append]
  rw [decode, if_pos rfl, hexValue?_hexDigit (by omega), hexValue?_hexDigit (by omega)]
  have hsum : b.toNat / 16 * 16 + b.toNat % 16 = b.toNat := by omega
  simp only [hsum]
  congr 1
  exact UInt8.ofNat_toNat

theorem toNat_ofNat {n : Nat} (h : n < 0x80) : (Char.ofNat n).toNat = n := by
  rw [Char.ofNat, dif_pos (Or.inl (by omega : n < 0xd800))]
  rfl

/-- A byte that stands for itself in a query is ASCII and none of the characters with a meaning there. -/
theorem isFormPlain_bounds {b : UInt8} (h : isFormPlain b) :
    b.toNat < 0x80 ∧ b.toNat ∉ [0x25, 0x2b, 0x26, 0x3d, 0x3f] := by
  simp only [isFormPlain, isAlphanumeric, Bool.or_eq_true, Bool.and_eq_true, decide_eq_true_eq, beq_iff_eq] at h
  simp only [List.mem_cons, List.not_mem_nil, or_false]
  rcases h with ((((h | h) | h) | h) | h)
  · omega
  all_goals subst h; decide

/-- A byte that stands for itself is none of the characters with a meaning in a query. -/
theorem ofNat_ne_of_isFormPlain {b : UInt8} (h : isFormPlain b) {c : Char} (hc : c ∈ ['%', '+', '&', '=', '?']) :
    Char.ofNat b.toNat ≠ c := by
  obtain ⟨hlt, hnot⟩ := isFormPlain_bounds h
  rintro rfl
  refine hnot ?_
  have hmem : (Char.ofNat b.toNat).toNat ∈ ['%', '+', '&', '=', '?'].map Char.toNat := List.mem_map.2 ⟨_, hc, rfl⟩
  rwa [toNat_ofNat hlt] at hmem

/-- A byte of a name or value, with a `+` read as a space, is read as the byte it is. -/
theorem decode_formByte (b : UInt8) (cs : List Char) :
    decode ((formByte b).map (fun c => if c = '+' then ' ' else c) ++ cs) = b :: decode cs := by
  have hb : b.toNat < 256 := UInt8.toNat_lt b
  rw [formByte]
  split
  · rename_i h
    obtain rfl := eq_of_beq h
    exact decode_cons_of_ne (by decide) cs
  · rw [byteText]
    split
    · rename_i h
      obtain ⟨hlt, -⟩ := isFormPlain_bounds h
      have hplus := ofNat_ne_of_isFormPlain h (c := '+') (by decide)
      have hpercent := ofNat_ne_of_isFormPlain h (c := '%') (by decide)
      rw [List.map_singleton, if_neg hplus, List.singleton_append, decode_cons_of_ne hpercent]
      simp only [Text.encodeChar, toNat_ofNat hlt, hlt, if_true, List.singleton_append]
      congr 1
      exact UInt8.ofNat_toNat
    · have hhigh := hexDigit_ne (n := b.toNat / 16) (by omega) (c := '+') (by decide)
      have hlow := hexDigit_ne (n := b.toNat % 16) (by omega) (c := '+') (by decide)
      have hsame : (escape b).map (fun c => if c = '+' then ' ' else c) = escape b := by
        simp [escape, hhigh, hlow]
      rw [hsame, decode_escape]

/-- **A name or value of a query is read back.** -/
theorem formDecode_formText (s : String) : formDecode (formText s) = s.toList := by
  have hbytes : ∀ bytes : List UInt8,
      decode ((bytes.flatMap formByte).map fun c => if c = '+' then ' ' else c) = bytes := by
    intro bytes
    induction bytes with
    | nil => rfl
    | cons b rest ih => rw [List.flatMap_cons, List.map_append, decode_formByte, ih]
  rw [formDecode, formText, hbytes, Text.decodeReplacing_encode]

/-- Nothing in a name or value separates. -/
theorem not_mem_formText (s : String) {c : Char} (hc : c ∈ ['&', '=']) : c ∉ formText s := by
  have hsub : ['&', '='] ⊆ ['%', '+', '&', '=', '?'] := by simp
  have hall : c ∈ ['%', '+', '&', '=', '?'] := hsub hc
  intro hmem
  obtain ⟨b, -, hmem⟩ := List.mem_flatMap.1 hmem
  have hb : b.toNat < 256 := UInt8.toNat_lt b
  rw [formByte] at hmem
  split at hmem
  · obtain rfl := List.mem_singleton.1 hmem
    revert hc
    decide
  · rw [byteText] at hmem
    split at hmem
    · rename_i h
      exact ofNat_ne_of_isFormPlain h hall (List.mem_singleton.1 hmem).symm
    · simp only [escape, List.mem_cons, List.not_mem_nil, or_false] at hmem
      rcases hmem with rfl | hmem | hmem
      · revert hc
        decide
      · exact hexDigit_ne (by omega) hall hmem.symm
      · exact hexDigit_ne (by omega) hall hmem.symm

/-- The queries on both sides of an `&` are read one after the other. -/
theorem queryDecode_append (cs ds : List Char) : queryDecode (cs ++ '&' :: ds) = queryDecode cs ++ queryDecode ds := by
  simp [queryDecode, List.splitOn_append_cons_self]

theorem queryDecode_pairText (p : String × String) : queryDecode (pairText p) = [(p.1.toList, p.2.toList)] := by
  have hamp : '&' ∉ pairText p := by
    simp [pairText, not_mem_formText]
  have hname : ∀ c ∈ formText p.1, (c != '=') = true := by
    intro c hc
    simp only [bne_iff_ne]
    rintro rfl
    exact not_mem_formText p.1 (by decide) hc
  have hne : (pairText p).isEmpty = false := by
    simp [pairText]
  have hbefore : (pairText p).takeWhile (· != '=') = formText p.1 := by
    simp [pairText, List.takeWhile_append_of_pos hname]
  have hafter : (pairText p).dropWhile (· != '=') = '=' :: formText p.2 := by
    simp [pairText, List.dropWhile_append_of_pos hname]
  rw [queryDecode, List.splitOn_eq_singleton hamp]
  simp [hne, hbefore, hafter, formDecode_formText]

/-- **The pairs of a query are read back.** -/
theorem queryDecode_query (pairs : List (String × String)) :
    queryDecode (query pairs) = pairs.map fun p => (p.1.toList, p.2.toList) := by
  induction pairs with
  | nil => simp [query, queryDecode, List.splitOn_nil]
  | cons p rest ih =>
    cases rest with
    | nil => rw [query, List.map_singleton, List.intercalate_singleton, queryDecode_pairText, List.map_singleton]
    | cons q rest =>
      have hcons : query (p :: q :: rest) = pairText p ++ '&' :: query (q :: rest) := by
        simp [query, List.intercalate_cons_cons]
      rw [hcons, queryDecode_append, queryDecode_pairText, ih]
      rfl

end Percent

namespace Url

theorem toNat_lt_of_isPathPlain {b : UInt8} (h : isPathPlain b) : b.toNat < 0x80 ∧ b.toNat ≠ 0x3f := by
  simp only [isPathPlain, isControl, Bool.not_eq_true', Bool.or_eq_false_iff, decide_eq_false_iff_not,
    beq_eq_false_iff_ne] at h
  obtain ⟨⟨⟨⟨⟨⟨⟨⟨⟨hcontrol, -⟩, -⟩, -⟩, -⟩, -⟩, hmark⟩, -⟩, -⟩, -⟩ := h
  exact ⟨by omega, fun heq => hmark (UInt8.toNat_inj.1 heq)⟩

/-- A character of a path that no escape has is a byte that stands for itself. -/
theorem exists_of_mem_encode {bytes : List UInt8} {c : Char} (hescape : c ≠ '%' ∧ ∀ n < 16, Percent.hexDigit n ≠ c)
    (h : c ∈ Percent.encode isPathPlain bytes) : ∃ b ∈ bytes, b.toNat = c.toNat ∧ isPathPlain b := by
  obtain ⟨b, hb, hmem⟩ := List.mem_flatMap.1 h
  have hlt : b.toNat < 256 := UInt8.toNat_lt b
  rw [Percent.byteText] at hmem
  split at hmem
  · rename_i hplain
    have heq := congrArg Char.toNat (List.mem_singleton.1 hmem)
    rw [Percent.toNat_ofNat (toNat_lt_of_isPathPlain hplain).1] at heq
    exact ⟨b, hb, heq.symm, hplain⟩
  · simp only [Percent.escape, List.mem_cons, List.not_mem_nil, or_false] at hmem
    rcases hmem with heq | heq | heq
    · exact absurd heq hescape.1
    · exact absurd heq.symm (hescape.2 _ (by omega))
    · exact absurd heq.symm (hescape.2 _ (by omega))

/-- A segment is sent without a question mark. -/
theorem question_not_mem_encode (bytes : List UInt8) : '?' ∉ Percent.encode isPathPlain bytes := by
  intro hmem
  obtain ⟨b, -, heq, hplain⟩ := exists_of_mem_encode ⟨by decide, by decide⟩ hmem
  exact (toNat_lt_of_isPathPlain hplain).2 heq

/-- What holds of the empty segment and of the segments that are added holds of a path. -/
theorem forall_mem_pushSegments {P : List Char → Prop} (hnil : P []) {segments : List (List Char)} :
    ∀ {path : List (List Char)}, (∀ s ∈ path, P s) →
      (∀ s ∈ segments, P (Percent.encode isPathPlain (Text.encode s))) → ∀ s ∈ pushSegments path segments, P s := by
  induction segments with
  | nil => exact fun hpath _ => hpath
  | cons segment rest ih =>
    intro path hpath hsegments
    have hdrop : ∀ s ∈ path.drop 1, P s := fun s hs => hpath s (List.mem_of_mem_drop hs)
    obtain ⟨hsegment, hrest⟩ := List.forall_mem_cons.1 hsegments
    refine ih ?_ hrest
    rw [pushSegment]
    split
    · split
      · exact List.forall_mem_cons.2 ⟨hnil, hdrop⟩
      · exact hdrop
    · split
      · split
        · exact List.forall_mem_cons.2 ⟨hnil, hpath⟩
        · exact hpath
      · exact List.forall_mem_cons.2 ⟨hsegment, hpath⟩

/-- The path of a URL is made of the segments of a text. -/
theorem path_of_parse? {text : List Char} {u : Url} (h : parse? text = some u) : ∃ cs, u.path = segments cs := by
  simp only [parse?, Option.bind_eq_bind, Option.pure_def] at h
  split at h
  on_goal 2 => split at h
  all_goals
    obtain ⟨secure, -, h⟩ := Option.bind_eq_some_iff.1 h
    obtain ⟨host, -, h⟩ := Option.bind_eq_some_iff.1 h
    obtain ⟨port, -, h⟩ := Option.bind_eq_some_iff.1 h
    exact ⟨_, congrArg Url.path (Option.some.inj h).symm⟩

/-- The path of a URL that was read has no question mark. -/
theorem question_not_mem_path {text : List Char} {u : Url} (h : parse? text = some u) : ∀ s ∈ u.path, '?' ∉ s := by
  obtain ⟨cs, hpath⟩ := path_of_parse? h
  rw [hpath]
  intro s hs
  exact forall_mem_pushSegments (P := fun s => '?' ∉ s) List.not_mem_nil (fun _ hs => absurd hs List.not_mem_nil)
    (fun s _ => question_not_mem_encode _) s (List.mem_reverse.1 hs)

/-- Pairs are added after those that are there. -/
theorem queryDecode_addPairs (u : Url) (pairs : List (String × String)) :
    Percent.queryDecode ((u.addPairs pairs).query.getD [])
      = Percent.queryDecode (u.query.getD []) ++ pairs.map fun p => (p.1.toList, p.2.toList) := by
  have hget : ∀ q : List Char, (if q.isEmpty then none else some q : Option (List Char)).getD [] = q := by
    intro q
    cases q <;> rfl
  rw [addPairs]
  simp only [hget]
  split
  · rename_i hp
    simp [List.isEmpty_iff.1 hp]
  · split
    · rename_i ht
      rw [List.isEmpty_iff.1 ht, Percent.queryDecode_query]
      simp [Percent.queryDecode, List.splitOn_nil]
    · rw [Percent.queryDecode_append, Percent.queryDecode_query]

end Url

namespace Request

/-- The place that a request is for: its target up to the query. -/
def place (r : Request) : List Char := r.target.toList.takeWhile (· != '?')

/-- The query of a request. -/
def query (r : Request) : List Char := (r.target.toList.dropWhile (· != '?')).drop 1

/-- The pairs of the query. -/
def pairs (r : Request) : List (String × String) :=
  (Percent.queryDecode r.query).map fun p => (String.ofList p.1, String.ofList p.2)

/-- What the query has under a name; of two values the later one. -/
def option? (r : Request) (name : String) : Option String := r.pairs.reverse.lookup name

/-- The place and the query of a request are the path and the query of its URL. -/
theorem target_request {u : Url} (h : ∀ s ∈ u.path, '?' ∉ s) (method : Method) (user : Option (String × Option String))
    (body : Option Json) :
    (u.request method user body).place = u.path.flatMap (fun s => '/' :: s)
      ∧ (u.request method user body).query = u.query.getD [] := by
  have hpath : ∀ c ∈ u.path.flatMap (fun s => '/' :: s), (c != '?') = true := by
    intro c hc
    obtain ⟨s, hs, hc⟩ := List.mem_flatMap.1 hc
    rw [bne_iff_ne]
    rintro rfl
    rcases List.mem_cons.1 hc with heq | hc
    · exact absurd heq (by decide)
    · exact h s hs hc
  simp only [place, query, Url.request, Url.target, String.toList_ofList]
  rw [List.takeWhile_append_of_pos hpath, List.dropWhile_append_of_pos hpath]
  cases u.query <;> simp

end Request

namespace Client

/-- The place of a path below the base URL. -/
def place (c : Client) (path : List String) : List Char :=
  ((Url.parse? (c.locate path)).elim [] Url.path).flatMap fun s => '/' :: s

/-- The pairs that the base URL itself asks for. -/
def ownPairs (c : Client) (path : List String) : List (String × String) :=
  (Percent.queryDecode ((Url.parse? (c.locate path)).bind Url.query |>.getD [])).map
    fun p => (String.ofList p.1, String.ofList p.2)

/-- **What is sent for a path** is sent to the place of the path. -/
theorem sent_of_request? {c : Client} {method : Method} {path : List String} {options : Option (List (String × String))}
    {body : Option Json} {r : Request} (h : c.request? method path options body = some r) :
    r.method = method ∧ r.body = body ∧ r.place = c.place path := by
  obtain ⟨u, hu, rfl⟩ := Option.map_eq_some_iff.1 h
  refine ⟨rfl, rfl, ?_⟩
  have hpath : ∀ s ∈ u.path, '?' ∉ s := Url.question_not_mem_path hu
  rw [place, hu]
  cases options with
  | none => exact (Request.target_request hpath method c.user? body).1
  | some pairs => exact (Request.target_request (u := u.addPairs pairs) hpath method c.user? body).1

/-- **A server reads the pairs of a request off its target**, after those of the base URL. -/
theorem request?_eq_some {c : Client} {method : Method} {path : List String} {pairs : List (String × String)}
    {body : Option Json} {r : Request} (h : c.request? method path (some pairs) body = some r) :
    r.method = method ∧ r.body = body ∧ r.place = c.place path ∧ r.pairs = c.ownPairs path ++ pairs := by
  obtain ⟨hmethod, hbody, hplace⟩ := sent_of_request? h
  refine ⟨hmethod, hbody, hplace, ?_⟩
  obtain ⟨u, hu, rfl⟩ := Option.map_eq_some_iff.1 h
  have hpath : ∀ s ∈ (u.addPairs pairs).path, '?' ∉ s := Url.question_not_mem_path (u := u) hu
  have hquery := (Request.target_request hpath method c.user? body).2
  rw [Request.pairs, hquery, Url.queryDecode_addPairs, ownPairs, hu, List.map_append, List.map_map]
  simp [Function.comp_def]

/-- Of a name given twice the last value counts, and the pairs of a request come last. -/
theorem option?_of_request? {c : Client} {method : Method} {path : List String} {pairs : List (String × String)}
    {body : Option Json} {r : Request} (h : c.request? method path (some pairs) body = some r) {name value : String}
    (hv : pairs.reverse.lookup name = some value) : r.option? name = some value := by
  obtain ⟨-, -, -, hpairs⟩ := request?_eq_some h
  rw [Request.option?, hpairs, List.reverse_append, List.lookup_append, hv]
  rfl

end Client
end DocClient
