/-
# Written strings are read back

A string may have any characters. What could be taken for the end of the string or for an escape is escaped when it is
written, and so are the controls; the machine that reads a text undoes that one character at a time:

| in the string | written | the machine goes through |
| --- | --- | --- |
| a quote, a backslash, one of five controls | a backslash and a letter | an escape |
| another control | `\u00` and two hex digits | an escape, then four hex digits |
| any other character | itself | nothing else |

After the text of a character the machine is inside the string as before, with the character (`run_escapedChar`), so
after the text of a string it has the string (`run_stringText`), and after the text of a list of strings the list
(`ofText_strings`).
-/

import DocClient.Proofs.Json.Readers

namespace DocClient

namespace Draft

/-- A hex digit is read as its value. -/
theorem Quote.hexDigit?_digitChar {n : Nat} (h : n < 16) : hexDigit? (Nat.digitChar n) = some n := by
  decide +revert

namespace Scan

/-- The machine inside a string, with its characters so far, last first. -/
def within (s : Scan) (isKey : Bool) (done : List Char) : Scan :=
  { s with mode := .quote isKey ⟨done, false, none⟩ .plain }

variable {s : Scan} {isKey : Bool} {done : List Char}

/-- A character that needs no escape is read as itself. -/
theorem step_plain {c : Char} (hquote : c ≠ '"') (hescape : c ≠ '\\') (hcontrol : ¬ c.toNat < 0x20) :
    (s.within isKey done).step c = s.within isKey (c :: done) := by
  simp [within, step, Quote.step?, Quote.push, hquote, hescape, hcontrol]

/-- A backslash and a letter are read as what the letter stands for. -/
theorem run_letter {c : Char} (letter : Char) (hletter : letter ≠ 'u') (h : Quote.escaped? letter = some c) :
    (s.within isKey done).run ['\\', letter] = s.within isKey (c :: done) := by
  simp [within, run, step, Quote.step?, Quote.push, hletter, h]

/-- A control that is written in hex is read as itself. -/
theorem run_hex {c : Char} (h : c.toNat < 0x20) :
    (s.within isKey done).run
      ['\\', 'u', '0', '0', Nat.digitChar (c.toNat / 16), Nat.digitChar (c.toNat % 16)]
        = s.within isKey (c :: done) := by
  have hhigh := Quote.hexDigit?_digitChar (n := c.toNat / 16) (by omega)
  have hlow := Quote.hexDigit?_digitChar (n := c.toNat % 16) (by omega)
  have hzero : Quote.hexDigit? '0' = some 0 := rfl
  have hsum : c.toNat / 16 * 16 + c.toNat % 16 = c.toNat := by omega
  have hhalf : ¬ (0xd800 ≤ c.toNat) := by omega
  have hsecond : ¬ (0xdc00 ≤ c.toNat) := by omega
  simp [within, run, step, Quote.step?, hzero, hhigh, hlow, hsum, Quote.pushUnit, hhalf, hsecond, Quote.push]

/-- **A character is read back, whatever it is.** -/
theorem run_escapedChar (c : Char) :
    (s.within isKey done).run (Json.escapedChar c) = s.within isKey (c :: done) := by
  rw [Json.escapedChar]
  split_ifs with hquote hescape hb hf hn hr ht hcontrol
  · exact run_letter '"' (by decide) (congrArg some hquote.symm)
  · exact run_letter '\\' (by decide) (congrArg some hescape.symm)
  · exact run_letter 'b' (by decide) (congrArg some hb.symm)
  · exact run_letter 'f' (by decide) (congrArg some hf.symm)
  · exact run_letter 'n' (by decide) (congrArg some hn.symm)
  · exact run_letter 'r' (by decide) (congrArg some hr.symm)
  · exact run_letter 't' (by decide) (congrArg some ht.symm)
  · exact run_hex hcontrol
  · exact step_plain hquote hescape hcontrol

theorem run_flatMap_escapedChar (cs : List Char) :
    (s.within isKey done).run (cs.flatMap Json.escapedChar) = s.within isKey (cs.reverse ++ done) := by
  induction cs generalizing done with
  | nil => rfl
  | cons c rest ih =>
    rw [List.flatMap_cons, run_append, run_escapedChar, ih, List.reverse_cons, List.append_assoc]
    rfl

variable {items : List Draft} {frames : List Frame} {root : Option Draft}

/-- **A string is read back** as an item, where one is due. -/
theorem run_stringText {mode : Mode} (hdue : mode = .value ∨ mode = .itemOrEnd) (t : String) :
    run ⟨.items items :: frames, root, mode⟩ (Json.stringText t)
      = ⟨.items (.str t :: items) :: frames, root, .next⟩ := by
  have hopen : step ⟨.items items :: frames, root, mode⟩ '"'
      = within ⟨.items items :: frames, root, mode⟩ false [] := by
    rcases hdue with rfl | rfl <;> rfl
  have hclose : step (within ⟨.items items :: frames, root, mode⟩ false t.toList.reverse) '"'
      = ⟨.items (.str t :: items) :: frames, root, .next⟩ := by
    simp [within, step, endQuote, Quote.text?, finish]
  rw [Json.stringText, List.cons_append, run, List.foldl_cons, hopen]
  change run _ (t.toList.flatMap Json.escapedChar ++ ['"']) = _
  rw [run_append, run_flatMap_escapedChar, List.append_nil]
  exact hclose

/-- The items after the first are read back, and the array is closed behind them. -/
theorem run_itemsText (texts : List String) :
    run ⟨[.items items], none, .next⟩ (Json.itemsText (texts.map .str))
      = ⟨[], some (.arr (items.reverse ++ ofItems (texts.map .str)) true), .next⟩ := by
  induction texts generalizing items with
  | nil =>
    rw [List.map_nil, ofItems, List.append_nil]
    rfl
  | cons t rest ih =>
    have hcomma : step ⟨[.items items], none, .next⟩ ',' = ⟨[.items items], none, .value⟩ := rfl
    rw [List.map_cons, Json.itemsText, Json.text, List.cons_append, run, List.foldl_cons, hcomma]
    change run _ (Json.stringText t ++ Json.itemsText (rest.map .str)) = _
    rw [run_append, run_stringText (.inl rfl), ih, List.reverse_cons, List.append_assoc]
    rfl

end Scan

/-- **The text of a list of strings spells the list.** -/
theorem ofText_strings (texts : List String) :
    ofText (Json.ofStrings texts).text = ⟨ofJson (Json.ofStrings texts), true⟩ := by
  cases texts with
  | nil => rfl
  | cons t rest =>
    have hopen : Scan.step {} '[' = ⟨[.items []], none, .itemOrEnd⟩ := rfl
    have hrun : Scan.run {} (Json.ofStrings (t :: rest)).text
        = ⟨[], some (ofJson (Json.ofStrings (t :: rest))), .next⟩ := by
      rw [Json.ofStrings, List.map_cons, Json.text, Json.text, List.cons_append, Scan.run, List.foldl_cons, hopen]
      change Scan.run _ (Json.stringText t ++ Json.itemsText (rest.map .str)) = _
      rw [Scan.run_append, Scan.run_stringText (.inr rfl), Scan.run_itemsText]
      rfl
    rw [ofText, hrun]
    rfl

end Draft

namespace Reader

variable {α : Type}

/-- **A list of strings is read back off its text**, whatever characters they have. A string is read alike wherever it
comes from (`hflat`), and one level of nesting is well within what a text may have. -/
theorem ofText_strings {r : Reader α} {texts : List String} {values : List α} (hflat : ∀ o d, r o d = r .value d)
    (h : (list r).ofJson (Json.ofStrings texts) = .ok values) :
    Reader.ofText (list r) (Json.ofStrings texts).text = .ok values := by
  obtain ⟨items, hitems, hread⟩ := list_ofJson.1 h
  obtain rfl := Json.arr.inj hitems
  have hvalues : (Draft.ofItems (texts.map .str)).mapM (r (.text 126)) = .ok values :=
    mapM_ofItems.2 (hread.imp fun v a hv => (hflat _ _).trans hv)
  have hroom : (Origin.text nestingLimit).enter = .ok (.text 126) := rfl
  have hlist : list r (.text nestingLimit) (Draft.ofJson (Json.ofStrings texts)) = .ok values := by
    simp only [Json.ofStrings, Draft.ofJson, list, hroom, Outcome.ok_bind, hvalues, whole, if_true, Outcome.pure_eq_ok]
  rw [ofText, Draft.ofText_strings, hlist]
  rfl

end Reader
end DocClient
