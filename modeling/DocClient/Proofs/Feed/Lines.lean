/-
# Lines out of chunks

A body arrives in chunks, and a chunk may end anywhere: inside a line, inside a character, before a newline. The lines
are put together as the chunks come (`Assembly`), and they are the same however the bytes are cut into chunks
(`ofChunks_eq`).

What the lines are can be said of the whole body (`due`): the parts between its newlines, without the last part where
that is empty or the body does not end by itself. Of these the ones before the first that is not UTF-8 are read
(`lines_ofBody`).
-/

import DocClient.Feed.Stream
import DocClient.Proofs.Text.Utf8

namespace DocClient
namespace LineStream

/-- What has no newline is the beginning of a line. -/
theorem cut_of_not_mem {bytes : List UInt8} (h : newline ∉ bytes) : cut bytes = ([], bytes) := by
  induction bytes with
  | nil => rfl
  | cons b rest ih =>
    obtain ⟨hb, hrest⟩ := not_or.1 (mt List.mem_cons.2 h)
    simp [cut, ih hrest, Ne.symm hb]

/-- The bytes up to the first newline are the first line. -/
theorem cut_line {line : List UInt8} (h : newline ∉ line) (rest : List UInt8) :
    cut (line ++ newline :: rest) = (line :: (cut rest).1, (cut rest).2) := by
  induction line with
  | nil => simp [cut]
  | cons b more ih =>
    obtain ⟨hb, hmore⟩ := not_or.1 (mt List.mem_cons.2 h)
    simp [cut, ih hmore, Ne.symm hb]

/-- A byte string is the beginning of a line, or a line with its newline and more. -/
theorem line_cases (bytes : List UInt8) :
    newline ∉ bytes ∨ ∃ line rest, newline ∉ line ∧ bytes = line ++ newline :: rest := by
  by_cases h : newline ∈ bytes
  · obtain ⟨line, rest, heq, hline⟩ := List.eq_append_cons_of_mem h
    exact .inr ⟨line, rest, hline, heq⟩
  · exact .inl h

/-- What is left after the lines goes on with the bytes that follow. -/
theorem cut_append (as bs : List UInt8) :
    cut (as ++ bs) = ((cut as).1 ++ (cut ((cut as).2 ++ bs)).1, (cut ((cut as).2 ++ bs)).2) := by
  rcases line_cases as with h | ⟨line, rest, hline, rfl⟩
  · simp [cut_of_not_mem h]
  · rw [List.append_assoc, List.cons_append, cut_line hline, cut_line hline, cut_append rest bs, List.cons_append]
termination_by as.length
decreasing_by simp [*]; omega

/-- The lines and what is left are the parts between the newlines. -/
theorem splitOn_eq_cut (bytes : List UInt8) : bytes.splitOn newline = (cut bytes).1 ++ [(cut bytes).2] := by
  rcases line_cases bytes with h | ⟨line, rest, hline, rfl⟩
  · rw [cut_of_not_mem h, List.splitOn_eq_singleton h]
    rfl
  · rw [cut_line hline, List.splitOn_append_cons_self_of_not_mem hline, splitOn_eq_cut rest]
    rfl
termination_by bytes.length
decreasing_by simp [*]; omega

/-- The lines of a body that are to be read: the parts between its newlines; the last part counts where the body ends by
itself and there is something in it. -/
def due (body : List UInt8) (ending : Ending) : List (List UInt8) :=
  let parts := body.splitOn newline
  if ending = .closed ∧ parts.getLast? ≠ some [] then parts else parts.dropLast

theorem due_eq_cut (body : List UInt8) (ending : Ending) :
    due body ending = (cut body).1 ++ if ending = .closed ∧ (cut body).2 ≠ [] then [(cut body).2] else [] := by
  simp only [due, splitOn_eq_cut, List.getLast?_append, List.getLast?_singleton, Option.some_or, List.dropLast_concat,
    ne_eq, Option.some.injEq]
  split <;> simp

theorem due_line {line : List UInt8} (h : newline ∉ line) (rest : List UInt8) (ending : Ending) :
    due (line ++ newline :: rest) ending = line :: due rest ending := by
  simp [due_eq_cut, cut_line h]

theorem due_of_not_mem {body : List UInt8} (h : newline ∉ body) (ending : Ending) :
    due body ending = if ending = .closed ∧ body ≠ [] then [body] else [] := by
  simp [due_eq_cut, cut_of_not_mem h]

/-- A line is UTF-8. -/
def isText (line : List UInt8) : Bool := (Text.decode? line).isSome

/-- The texts of some lines, up to the first line that is not UTF-8. -/
def readable (lines : List (List UInt8)) : List (List Char) := (lines.takeWhile isText).filterMap Text.decode?

@[simp] theorem readable_nil : readable [] = [] := rfl

theorem readable_cons_some {line : List UInt8} {cs : List Char} (h : Text.decode? line = some cs)
    (rest : List (List UInt8)) : readable (line :: rest) = cs :: readable rest := by
  simp [readable, isText, h]

theorem readable_cons_none {line : List UInt8} (h : Text.decode? line = none) (rest : List (List UInt8)) :
    readable (line :: rest) = [] := by
  simp [readable, isText, h]

theorem decodeLines_eq (lines : List (List UInt8)) : decodeLines lines = (readable lines, !lines.all isText) := by
  induction lines with
  | nil => rfl
  | cons line rest ih =>
    rw [decodeLines, ih]
    cases h : Text.decode? line with
    | none => simp [readable_cons_none h, isText, h]
    | some cs => simp [readable_cons_some h, isText, h]

/-- Lines after some that can be read are read after them. -/
theorem readable_append (xs ys : List (List UInt8)) :
    readable (xs ++ ys) = if xs.all isText then readable xs ++ readable ys else readable xs := by
  induction xs with
  | nil => rfl
  | cons line rest ih =>
    cases h : Text.decode? line with
    | none => simp [readable_cons_none h, isText, h]
    | some cs =>
      rw [List.cons_append, readable_cons_some h, readable_cons_some h, ih, List.all_cons, isText, h]
      cases rest.all isText <;> rfl

/-- How the reading of a body ends that can be read to its end. -/
def endOf : Ending → StreamEnd
  | .closed => .closed
  | .cut => .failed
  | .stalled => .quiet

/-- The reading of a body that comes to an end, or fails at a line that is not UTF-8. -/
theorem ofBody_eq (body : List UInt8) (ending : Ending) : ofBody body ending
    = ⟨readable (due body ending), if (due body ending).all isText then endOf ending else .failed⟩ := by
  simp only [ofBody, decodeLines_eq, due_eq_cut]
  cases ending with
  | closed =>
    by_cases h : (cut body).2 = []
    · simp only [h, List.isEmpty_nil, if_true, ne_eq, not_true_eq_false, and_false, if_false, List.append_nil]
      cases (cut body).1.all isText <;> rfl
    · simp only [h, List.isEmpty_iff, if_false, ne_eq, not_false_eq_true, and_self, if_true]
      cases ((cut body).1 ++ [(cut body).2]).all isText <;> rfl
  | cut =>
    simp only [reduceCtorEq, false_and, if_false, List.append_nil]
    cases (cut body).1.all isText <;> rfl
  | stalled =>
    simp only [reduceCtorEq, false_and, if_false, List.append_nil]
    cases (cut body).1.all isText <;> rfl

/-- **The lines of a body are those that are due, up to the first that is not UTF-8.** -/
theorem lines_ofBody (body : List UInt8) (ending : Ending) :
    (ofBody body ending).lines = readable (due body ending) := by
  rw [ofBody_eq]

/-- **The reading of a body ends as the body does**, or fails at the first line that is not UTF-8. -/
theorem ending_ofBody (body : List UInt8) (ending : Ending) :
    (ofBody body ending).ending = if (due body ending).all isText then endOf ending else .failed := by
  rw [ofBody_eq]

/-- The reading of a body part way through. -/
structure Assembly where
  /-- The lines so far. -/
  lines : List (List Char) := []
  /-- A line was not UTF-8, which ends the reading. -/
  bad : Bool := false
  /-- The bytes of the line that has not ended. -/
  begun : List UInt8 := []

namespace Assembly

/-- The reading after one more chunk. -/
def chunk (a : Assembly) (bytes : List UInt8) : Assembly :=
  if a.bad then a
  else
    let (whole, rest) := cut (a.begun ++ bytes)
    let (lines, bad) := decodeLines whole
    ⟨a.lines ++ lines, bad, if bad then [] else rest⟩

/-- The reading when nothing more arrives. -/
def finish (a : Assembly) (ending : Ending) : LineStream :=
  if a.bad then ⟨a.lines, .failed⟩
  else
    match ending with
    | .closed =>
      if a.begun.isEmpty then ⟨a.lines, .closed⟩
      else
        match Text.decode? a.begun with
        | some cs => ⟨a.lines ++ [cs], .closed⟩
        | none => ⟨a.lines, .failed⟩
    | .cut => ⟨a.lines, .failed⟩
    | .stalled => ⟨a.lines, .quiet⟩

/-- The reading after some bytes. -/
def ofBytes (bytes : List UInt8) : Assembly :=
  let (whole, rest) := cut bytes
  let (lines, bad) := decodeLines whole
  ⟨lines, bad, if bad then [] else rest⟩

/-- **A chunk takes the reading after some bytes to the reading after these bytes and the chunk.** -/
theorem chunk_ofBytes (before bytes : List UInt8) : (ofBytes before).chunk bytes = ofBytes (before ++ bytes) := by
  simp only [ofBytes, chunk, decodeLines_eq, cut_append before bytes, readable_append, List.all_append]
  cases (cut before).1.all isText <;> simp

/-- After the last byte the reading is that of the body. -/
theorem finish_ofBytes (body : List UInt8) (ending : Ending) : (ofBytes body).finish ending = ofBody body ending := by
  simp only [ofBytes, finish, ofBody, decodeLines_eq]
  cases hall : (cut body).1.all isText with
  | false =>
    cases ending with
    | closed => by_cases hrest : (cut body).2 = [] <;> simp [hall, hrest, readable_append]
    | cut => simp [hall]
    | stalled => simp [hall]
  | true =>
    cases ending with
    | closed =>
      by_cases hrest : (cut body).2 = []
      · simp [hall, hrest]
      · cases hd : Text.decode? (cut body).2 with
        | none => simp [hall, hrest, hd, readable_append, readable_cons_none hd, isText]
        | some cs => simp [hall, hrest, hd, readable_append, readable_cons_some hd, isText]
    | cut => simp [hall]
    | stalled => simp [hall]

end Assembly

/-- Reads a body that arrives in chunks. -/
def ofChunks (chunks : List (List UInt8)) (ending : Ending) : LineStream :=
  (chunks.foldl Assembly.chunk {}).finish ending

/-- **The lines do not depend on how the body is cut into chunks.** -/
theorem ofChunks_eq (chunks : List (List UInt8)) (ending : Ending) :
    ofChunks chunks ending = ofBody chunks.flatten ending := by
  have hfold : ∀ before : List UInt8,
      chunks.foldl Assembly.chunk (.ofBytes before) = .ofBytes (before ++ chunks.flatten) := by
    induction chunks with
    | nil => simp
    | cons c rest ih =>
      intro before
      rw [List.foldl_cons, Assembly.chunk_ofBytes, ih, List.flatten_cons, List.append_assoc]
  rw [ofChunks, ← Assembly.finish_ofBytes]
  exact congrArg (fun a => Assembly.finish a ending) (hfold [])

end LineStream
end DocClient
