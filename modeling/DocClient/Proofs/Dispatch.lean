/-
# Documents of several types under one dispatch

A dispatch is built step by step, and of the types that are put under one class the last one counts (`Dispatch.Latest`).
So what becomes of a document follows from the class that it names (`Dispatch.serves_build`):

| the document names | types put under that class | comes to |
| --- | --- | --- |
| a class | some | an entity of the last of them in the wrapper that came with it, or why it is none |
| a class | none | what the last fallback makes of it, or else a class that is unknown |
| no class | | a class field that is missing, fallback or not |
-/

import DocClient.Dispatch
import DocClient.Proofs.Envelope.RoundTrip

namespace DocClient

/-- A document names a class by a string under the class field. -/
theorem Envelope.classOf?_eq_some {classField className : String} {document : Object} :
    classOf? classField document = some className ↔ document.get? classField = some (.str className) :=
  Json.bind_str?_eq_some

namespace Dispatch

open Envelope

variable {ε : Type}

/-- A type that is put under a class, with the wrapper of its entities. -/
structure Entry (ε : Type) : Type 1 where
  {α : Type}
  className : ClassName
  type : EntityType α
  wrap : α → ε

/-- A step in which a dispatch is built. -/
inductive Step (ε : Type) : Type 1 where
  | insert (entry : Entry ε)
  | withFallback (f : Object → ε)

namespace Step

/-- The type that a step puts under a class, if it does. -/
def entry? : Step ε → Option (Entry ε)
  | .insert entry => some entry
  | .withFallback _ => none

/-- The fallback that a step gives, if it does. -/
def fallback? : Step ε → Option (Object → ε)
  | .insert _ => none
  | .withFallback f => some f

/-- The dispatch after a step. -/
def apply (d : Dispatch ε) : Step ε → Dispatch ε
  | .insert entry => d.insert entry.type entry.wrap entry.className
  | .withFallback f => d.withFallback f

end Step

/-- The dispatch that is built in some steps. -/
def build (steps : List (Step ε)) : Dispatch ε := steps.foldl Step.apply {}

/-- The types that are put under classes, in order. -/
def entriesOf (steps : List (Step ε)) : List (Entry ε) := steps.filterMap Step.entry?

/-- The last fallback that is given. -/
def fallbackOf (steps : List (Step ε)) : Option (Object → ε) := (steps.filterMap Step.fallback?).getLast?

/-- Of the types put under one class, the entry is the last. -/
def Latest (entry : Entry ε) (entries : List (Entry ε)) : Prop :=
  ∃ before after, entries = before ++ entry :: after ∧ ∀ later ∈ after, later.className ≠ entry.className

/-- The last type put under a class. -/
def latest? (className : String) (entries : List (Entry ε)) : Option (Entry ε) :=
  entries.reverse.find? fun entry => entry.className.text = className

theorem latest?_eq_some {className : String} {entries : List (Entry ε)} {entry : Entry ε} :
    latest? className entries = some entry ↔ entry.className.text = className ∧ Latest entry entries := by
  have hne : ∀ other : Entry ε, entry.className.text = className →
      (¬ other.className.text = className ↔ other.className ≠ entry.className) := by
    rintro other rfl
    rw [ne_eq, ClassName.mk.injEq]
  rw [latest?, List.find?_eq_some_iff_append]
  constructor
  · rintro ⟨hclass, after, before, hsplit, hafter⟩
    have hclass : entry.className.text = className := of_decide_eq_true hclass
    refine ⟨hclass, before.reverse, after.reverse, ?_, fun later hlater => ?_⟩
    · rw [← List.reverse_reverse entries, hsplit]
      simp
    · exact (hne later hclass).1 (by simpa using hafter later (List.mem_reverse.1 hlater))
  · rintro ⟨hclass, before, after, rfl, hafter⟩
    refine ⟨decide_eq_true hclass, after.reverse, before.reverse, by simp, fun later hlater => ?_⟩
    simpa using (hne later hclass).2 (hafter later (List.mem_reverse.1 hlater))

theorem latest?_eq_none {className : String} {entries : List (Entry ε)} :
    latest? className entries = none ↔ ∀ entry ∈ entries, entry.className.text ≠ className := by
  simp [latest?]

theorem latest?_concat (className : String) (entries : List (Entry ε)) (entry : Entry ε) :
    latest? className (entries ++ [entry])
      = if entry.className.text = className then some entry else latest? className entries := by
  by_cases h : entry.className.text = className <;> simp [latest?, h]

/-- **Every class with a type has a last type.** -/
theorem exists_latest {entries : List (Entry ε)} {entry : Entry ε} (h : entry ∈ entries) :
    ∃ last, Latest last entries ∧ last.className = entry.className := by
  cases hlast : latest? entry.className.text entries with
  | none => exact absurd rfl (latest?_eq_none.1 hlast entry h)
  | some last =>
    obtain ⟨hclass, hlatest⟩ := latest?_eq_some.1 hlast
    exact ⟨last, hlatest, congrArg ClassName.mk hclass⟩

/-- What an entry makes of a document: an entity of its type, wrapped. -/
def Entry.decode (entry : Entry ε) (document : Object) (classField : String) : Outcome ε :=
  (Envelope.decode entry.type.reader classField document).map entry.wrap

/-- A dispatch is what some steps make of it. -/
structure Agrees (steps : List (Step ε)) (d : Dispatch ε) : Prop where
  decoder_eq : ∀ className, d.decoders.get? className = (latest? className (entriesOf steps)).map Entry.decode
  fallback_eq : d.fallback = fallbackOf steps

/-- **One step keeps the dispatch in agreement with the steps.** -/
theorem Agrees.apply {steps : List (Step ε)} {d : Dispatch ε} (h : Agrees steps d) (step : Step ε) :
    Agrees (steps ++ [step]) (step.apply d) := by
  cases step with
  | insert entry =>
    refine ⟨fun className => ?_, ?_⟩
    · have hentries : entriesOf (steps ++ [.insert entry]) = entriesOf steps ++ [entry] := by
        simp [entriesOf, Step.entry?]
      have hget : (Step.apply d (.insert entry)).decoders.get? className
          = if className = entry.className.text then some entry.decode else d.decoders.get? className :=
        Table.get?_insert ..
      rw [hget, hentries, latest?_concat, h.decoder_eq]
      by_cases hclass : className = entry.className.text
      · simp [hclass]
      · simp [hclass, Ne.symm hclass]
    · have hfallback : fallbackOf (steps ++ [.insert entry]) = fallbackOf steps := by
        simp [fallbackOf, Step.fallback?]
      exact hfallback ▸ h.fallback_eq
  | withFallback f =>
    have hentries : entriesOf (steps ++ [.withFallback f]) = entriesOf steps := by
      simp [entriesOf, Step.entry?]
    refine ⟨fun className => hentries ▸ h.decoder_eq className, ?_⟩
    simp [fallbackOf, Step.fallback?, Step.apply, withFallback]

theorem agrees_build (steps : List (Step ε)) : Agrees steps (build steps) := by
  induction steps using List.reverseRecOn with
  | nil => exact ⟨fun _ => rfl, rfl⟩
  | append_singleton steps step ih =>
    rw [build, List.foldl_append]
    exact ih.apply step

section Decode

variable {steps : List (Step ε)} {d : Dispatch ε} {classField className : String} {document : Object}

/-- **A document of a class is decoded by the last type under that class.** -/
theorem Agrees.decode_of_latest (h : Agrees steps d) {entry : Entry ε} (hlatest : Latest entry (entriesOf steps))
    (hclass : document.get? classField = some (.str entry.className.text)) :
    d.decode document classField = entry.decode document classField := by
  have hdecoder := h.decoder_eq entry.className.text
  rw [latest?_eq_some.2 ⟨rfl, hlatest⟩] at hdecoder
  simp [decode, classOf?_eq_some.2 hclass, hdecoder]

/-- A document of a class without a type is for the fallback. -/
theorem Agrees.decode_of_unknown (h : Agrees steps d) (hclass : document.get? classField = some (.str className))
    (hunknown : ∀ entry ∈ entriesOf steps, entry.className.text ≠ className) :
    d.decode document classField
      = match fallbackOf steps with
        | some f => .ok (f document)
        | none => .error (.unknownClass className (idOf document)) := by
  have hdecoder := h.decoder_eq className
  rw [latest?_eq_none.2 hunknown] at hdecoder
  simp only [decode, classOf?_eq_some.2 hclass, hdecoder, h.fallback_eq, Option.map_none]
  cases fallbackOf steps <;> rfl

/-- A document without a class is refused. -/
theorem decode_of_unclassed (d : Dispatch ε) (hclass : ∀ className, document.get? classField ≠ some (.str className)) :
    d.decode document classField = .error (.missingClassField (idOf document) classField) := by
  have hnone : classOf? classField document = none :=
    Option.eq_none_iff_forall_ne_some.2 fun className h => hclass className (classOf?_eq_some.1 h)
  simp [decode, hnone]

/-- **The entities of the last type under a class are decoded from what they are encoded as.** -/
theorem Agrees.decode_encode (h : Agrees steps d) {last : Entry ε} (hlatest : Latest last (entriesOf steps))
    {fields : List String} {Valid : last.α → Prop} {style : Style} (hT : last.type.Faithful fields Valid)
    (hfree : FreeField fields style.classField) {e : last.α} (he : Valid e) :
    ∃ wire, encode style last.className (last.type.toJson e) = .ok wire
      ∧ d.decode wire style.classField = .ok (last.wrap e) := by
  refine ⟨_, encode_eq hT he style last.className, ?_⟩
  have hclass : (wrapped style last.className (last.type.members e)).get? style.classField
      = some (.str last.className.text) := by
    rw [wrapped, Table.get?_insert, if_pos rfl]
  rw [h.decode_of_latest hlatest hclass, Entry.decode,
    decode_of_carries hT he hfree (carries_wrapped hT he hfree last.className), Outcome.map_ok]

/-- **Whatever is decoded has a class,** and is an entity of the last type under it or the fallback's. -/
theorem Agrees.origin (h : Agrees steps d) {value : ε} (hvalue : d.decode document classField = .ok value) :
    ∃ className, document.get? classField = some (.str className) ∧
      ((∃ last e, Latest last (entriesOf steps) ∧ last.className.text = className
          ∧ Envelope.decode last.type.reader classField document = .ok e ∧ last.wrap e = value)
        ∨ ((∀ entry ∈ entriesOf steps, entry.className.text ≠ className)
          ∧ ∃ f, fallbackOf steps = some f ∧ f document = value)) := by
  cases hnames : classOf? classField document with
  | none => simp [decode, hnames] at hvalue
  | some className =>
    have hclass := classOf?_eq_some.1 hnames
    refine ⟨className, hclass, ?_⟩
    cases hlast : latest? className (entriesOf steps) with
    | some last =>
      obtain ⟨rfl, hlatest⟩ := latest?_eq_some.1 hlast
      rw [h.decode_of_latest hlatest hclass] at hvalue
      obtain ⟨e, he, hwrap⟩ := Outcome.map_eq_ok.1 hvalue
      exact .inl ⟨last, e, hlatest, rfl, he, hwrap⟩
    | none =>
      have hunknown := latest?_eq_none.1 hlast
      rw [h.decode_of_unknown hclass hunknown] at hvalue
      cases hfallback : fallbackOf steps with
      | none => simp [hfallback] at hvalue
      | some f =>
        rw [hfallback] at hvalue
        exact .inr ⟨hunknown, f, rfl, Except.ok.inj hvalue⟩

/-- A document that is not decoded names no class, or an unknown one, or does not have the shape of the type. -/
theorem Agrees.fault (h : Agrees steps d) {e : ClientError} (he : d.decode document classField = .error e) :
    ((∀ className, document.get? classField ≠ some (.str className))
        ∧ e = .missingClassField (idOf document) classField)
      ∨ ∃ className, document.get? classField = some (.str className)
        ∧ (e = .unknownClass className (idOf document) ∨ ∃ error, e = .serialization error) := by
  cases hnames : classOf? classField document with
  | none =>
    have hnot : ∀ className, document.get? classField ≠ some (.str className) := fun className hclass => by
      simp [classOf?_eq_some.2 hclass] at hnames
    rw [decode_of_unclassed d hnot] at he
    exact .inl ⟨hnot, (Except.error.inj he).symm⟩
  | some className =>
    have hclass := classOf?_eq_some.1 hnames
    refine .inr ⟨className, hclass, ?_⟩
    cases hlast : latest? className (entriesOf steps) with
    | some last =>
      obtain ⟨rfl, hlatest⟩ := latest?_eq_some.1 hlast
      rw [h.decode_of_latest hlatest hclass, Entry.decode, Envelope.decode] at he
      cases hread : last.type.reader.ofJson (.obj (domain (some classField) document)) with
      | ok value => simp [hread] at he
      | error error =>
        rw [hread] at he
        exact .inr ⟨error, (Except.error.inj he).symm⟩
    | none =>
      rw [h.decode_of_unknown hclass (latest?_eq_none.1 hlast)] at he
      split at he
      · cases he
      · exact .inl (Except.error.inj he).symm

end Decode

/-- **What a dispatch makes of documents**, given the types put under classes, in order, and the fallback. -/
structure Serves (entries : List (Entry ε)) (fallback : Option (Object → ε)) (d : Dispatch ε) : Prop where
  /-- Of every class with a type there is a last type. -/
  latest : ∀ entry ∈ entries, ∃ last, Latest last entries ∧ last.className = entry.className
  /-- The entities of the last type under a class are decoded from what they are encoded as, and wrapped. -/
  roundTrip : ∀ last, Latest last entries → ∀ (fields : List String) (Valid : last.α → Prop) (style : Style),
    last.type.Faithful fields Valid → FreeField fields style.classField → ∀ e, Valid e →
      ∃ wire, encode style last.className (last.type.toJson e) = .ok wire
        ∧ d.decode wire style.classField = .ok (last.wrap e)
  /-- The documents of other classes are for the fallback, as they are. -/
  unknown : ∀ (document : Object) (classField className : String), document.get? classField = some (.str className) →
    (∀ entry ∈ entries, entry.className.text ≠ className) →
      d.decode document classField
        = match fallback with
          | some f => .ok (f document)
          | none => .error (.unknownClass className (((document.get? "_id").bind Json.str?).getD ""))
  /-- Documents without a class are refused, fallback or not. -/
  unclassed : ∀ (document : Object) (classField : String),
    (∀ className, document.get? classField ≠ some (.str className)) →
      d.decode document classField
        = .error (.missingClassField (((document.get? "_id").bind Json.str?).getD "") classField)
  /-- What comes out is an entity of the last type under the class of the document, wrapped, or the fallback's. -/
  origin : ∀ (document : Object) (classField : String) (value : ε), d.decode document classField = .ok value →
    ∃ className, document.get? classField = some (.str className) ∧
      ((∃ last e, Latest last entries ∧ last.className.text = className
          ∧ Envelope.decode last.type.reader classField document = .ok e ∧ last.wrap e = value)
        ∨ ((∀ entry ∈ entries, entry.className.text ≠ className) ∧ ∃ f, fallback = some f ∧ f document = value))

/-- **Every dispatch, in whatever steps it was built**, decodes the documents of a class by the last type under that
class and leaves the documents of all other classes to the last fallback. -/
theorem serves_build (steps : List (Step ε)) : Serves (entriesOf steps) (fallbackOf steps) (build steps) := by
  have hagrees := agrees_build steps
  constructor
  case latest =>
    intro entry hentry
    exact exists_latest hentry
  case roundTrip =>
    intro last hlast fields Valid style hT hfree e he
    exact hagrees.decode_encode hlast hT hfree he
  case unknown =>
    intro document classField className hclass hunknown
    exact hagrees.decode_of_unknown hclass hunknown
  case unclassed =>
    intro document classField hclass
    exact decode_of_unclassed _ hclass
  case origin =>
    intro document classField value hvalue
    exact hagrees.origin hvalue

/-- Two types under one class, a fallback between them, and a third type under another class. -/
def sampleSteps : List (Step (Option StockEntity)) :=
  [.insert ⟨⟨"A"⟩, EntityKind.test.type, some⟩, .withFallback fun _ => none,
    .insert ⟨⟨"A"⟩, EntityKind.other.type, some⟩, .insert ⟨⟨"B"⟩, EntityKind.test.type, some⟩]

/-- The later type takes the class over, and the fallback takes what has another class. -/
theorem serves_build_sample :
    (∃ wire, encode ⟨"id", .keep⟩ ⟨"A"⟩ (StockEntity.other ⟨⟨"a"⟩, none, "t"⟩).toJson = .ok wire
      ∧ (build sampleSteps).decode wire "id" = .ok (some (.other ⟨⟨"a"⟩, none, "t"⟩)))
    ∧ (build sampleSteps).decode [("_id", .str "a"), ("type", .str "C")] "type" = .ok none := by
  have hserves := serves_build sampleSteps
  constructor
  · have hlatest : Latest ⟨⟨"A"⟩, EntityKind.other.type, some⟩ (entriesOf sampleSteps) := by
      refine ⟨[⟨⟨"A"⟩, EntityKind.test.type, some⟩], [⟨⟨"B"⟩, EntityKind.test.type, some⟩], rfl, fun later hlater => ?_⟩
      obtain rfl := List.mem_singleton.1 hlater
      simp
    exact hserves.roundTrip _ hlatest _ _ ⟨"id", .keep⟩ EntityKind.other.faithful
      ⟨by decide, by decide, fun _ => .inl rfl⟩ (.other ⟨⟨"a"⟩, none, "t"⟩) ⟨rfl, trivial⟩
  · refine hserves.unknown _ "type" "C" rfl fun entry hentry => ?_
    simp only [sampleSteps, entriesOf, List.filterMap_cons, Step.entry?, List.filterMap_nil, List.mem_cons,
      List.not_mem_nil, or_false] at hentry
    rcases hentry with rfl | rfl | rfl <;> simp

end Dispatch
end DocClient
