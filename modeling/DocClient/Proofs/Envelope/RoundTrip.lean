/-
# Entities come out of their envelopes as they went in

Of a stored document only this counts for what is decoded from it: it carries the members of the entity
(`Envelope.Carries`). Encoding gives such a document (`carries_wrapped`) and decoding takes the entity from any such
document (`decode_of_carries`), so the two cancel for every faithful entity type, under either null policy and with any
class field that the type leaves free (`Envelope.FreeField`):

| class field | where the class name goes | what is decoded |
| --- | --- | --- |
| a name of its own | beside the members | left out |
| `id`, `revision` | where the entity has nothing any more, its name and revision having moved | left out |
| one with an underscore | beside the members | left out |
-/

import DocClient.Proofs.Entity.Stock
import DocClient.Proofs.Envelope.Renaming

namespace DocClient
namespace Envelope

/-- A class field that an entity type with given fields leaves free. -/
def FreeField (fields : List String) (classField : String) : Prop :=
  classField ≠ "_id" ∧ classField ≠ "_rev" ∧ (classField ∈ fields → classField = "id" ∨ classField = "revision")

/-- A stored document carries the members of an entity: its name and revision under the server's names, nothing but
perhaps the class under the domain's, and the other fields as they are, but for nulls. -/
structure Carries (classField : String) (fields : List String) (wire o : Object) : Prop where
  sorted : wire.Sorted
  get?_id : wire.get? "_id" = o.get? "id"
  get?_rev : wire.get? "_rev" = (o.get? "revision").filter isPresent
  get?_domain : ∀ name, name = "id" ∨ name = "revision" → name ≠ classField → wire.get? name = none
  get?_other : ∀ name ∈ fields, name ≠ "id" → name ≠ "revision" →
    wire.get? name = o.get? name ∨ (wire.get? name = none ∧ o.get? name = some .null)

/-- The stored form of an object: its members renamed, and the class over what was under the class field. -/
def wrapped (style : Style) (className : ClassName) (o : Object) : Object :=
  (rename (outgoing? style.nullFields) o).insert style.classField (.str className.text)

section Wrapped

variable {style : Style} {className : ClassName} {o : Object}

theorem sorted_wrapped : (wrapped style className o).Sorted := Table.sorted_insert (sorted_rename _ _)

/-- Under the names that the domain has for the two there is nothing but perhaps the class. -/
theorem get?_wrapped_domain {key : String} (h : key = "id" ∨ key = "revision") (hclass : key ≠ style.classField) :
    (wrapped style className o).get? key = none := by
  rw [wrapped, Table.get?_insert, if_neg hclass, get?_outgoing_domain h]

/-- **What an object without names of the server's is stored as beside its class,** name by name. -/
theorem get?_wrapped (hs : o.Sorted) (hplain : ∀ m ∈ o, isSystem m.1 = false) {key : String}
    (hclass : key ≠ style.classField) :
    (wrapped style className o).get? key
      = if key = "_id" then o.get? "id"
        else if key = "_rev" then (o.get? "revision").filter isPresent
        else if key = "id" ∨ key = "revision" then none
        else (o.get? key).filter (goesOut style.nullFields) := by
  rw [wrapped, Table.get?_insert, if_neg hclass, get?_outgoing hs hplain]

end Wrapped

section Faithful

variable {α : Type} {T : EntityType α} {fields : List String} {Valid : α → Prop} {classField : String} {e : α}

/-- **An entity is decoded from whatever carries its members.** -/
theorem decode_of_carries (hT : T.Faithful fields Valid) (he : Valid e) (hfree : FreeField fields classField)
    {wire : Object} (h : Carries classField fields wire (T.members e)) : decode T.reader classField wire = .ok e := by
  have hagree : Agree fields (domain (some classField) wire) (T.members e) := by
    intro name hn
    by_cases hid : name = "id"
    · subst hid
      have habsent : some "id" ≠ some classField → wire.get? "id" = none :=
        fun hc => h.get?_domain "id" (.inl rfl) fun hc' => hc (congrArg some hc')
      exact .inl (by rw [get?_domain_moved h.sorted (.inl ⟨rfl, rfl⟩) habsent, h.get?_id])
    · by_cases hrev : name = "revision"
      · subst hrev
        have habsent : some "revision" ≠ some classField → wire.get? "revision" = none :=
          fun hc => h.get?_domain "revision" (.inr rfl) fun hc' => hc (congrArg some hc')
        rw [get?_domain_moved h.sorted (.inr ⟨rfl, rfl⟩) habsent, h.get?_rev]
        exact agrees_filter_isPresent _
      · have hcf : ¬ (some name = some classField ∨ isSystem name) := by
          rintro (hc | hs)
          · obtain rfl := Option.some.inj hc
            rcases hfree.2.2 hn with h' | h'
            · exact hid h'
            · exact hrev h'
          · rw [hT.plain name hn] at hs
            exact Bool.false_ne_true hs
        rw [get?_domain_other h.sorted hid hrev, if_neg hcf]
        exact h.get?_other name hn hid hrev
  have hreads := hT.reads e he (domain (some classField) wire) (sorted_rename _ _) hagree
  rw [decode, hreads, Outcome.ofRead_ok]

/-- A field of a faithful type is no name of the server's. -/
theorem ne_of_isSystem (hT : T.Faithful fields Valid) {name stored : String} (hn : name ∈ fields)
    (hs : isSystem stored = true) : name ≠ stored := by
  rintro rfl
  rw [hT.plain _ hn] at hs
  exact Bool.false_ne_true hs

/-- No member of an entity has a name of the server's. -/
theorem plain_members (hT : T.Faithful fields Valid) (he : Valid e) : ∀ m ∈ T.members e, isSystem m.1 = false :=
  fun m hm => hT.plain _ (hT.named e he m hm)

/-- **Every entity is encoded.** -/
theorem encode_eq (hT : T.Faithful fields Valid) (he : Valid e) (style : Style) (className : ClassName) :
    encode style className (T.toJson e) = .ok (wrapped style className (T.members e)) := by
  have hcontains : (rename (outgoing? style.nullFields) (T.members e)).contains "_id" = true := by
    rw [Table.contains, get?_outgoing (hT.sorted e he) (plain_members hT he), if_pos rfl, hT.get?_id e he]
    rfl
  simp [encode, wrapped, hT.toJson_eq e he, members, hcontains]

/-- The name of an entity goes out as `_id`. -/
theorem get?_id_wrapped (hT : T.Faithful fields Valid) (he : Valid e) {style : Style} (hc : style.classField ≠ "_id")
    (className : ClassName) : (wrapped style className (T.members e)).get? "_id" = (T.members e).get? "id" := by
  rw [get?_wrapped (hT.sorted e he) (plain_members hT he) (Ne.symm hc), if_pos rfl]

/-- The revision of an entity goes out as `_rev`, if it has one. -/
theorem get?_rev_wrapped (hT : T.Faithful fields Valid) (he : Valid e) {style : Style} (hc : style.classField ≠ "_rev")
    (className : ClassName) :
    (wrapped style className (T.members e)).get? "_rev" = ((T.members e).get? "revision").filter isPresent := by
  rw [get?_wrapped (hT.sorted e he) (plain_members hT he) (Ne.symm hc), if_neg (by decide), if_pos rfl]

/-- Another field of an entity goes out as it is, unless it is a null that is left out. -/
theorem get?_field_wrapped (hT : T.Faithful fields Valid) (he : Valid e) {style : Style} {name : String}
    (hn : name ∈ fields) (hid : name ≠ "id") (hrev : name ≠ "revision") (hc : name ≠ style.classField)
    (className : ClassName) : (wrapped style className (T.members e)).get? name
      = ((T.members e).get? name).filter (goesOut style.nullFields) := by
  rw [get?_wrapped (hT.sorted e he) (plain_members hT he) hc, if_neg (ne_of_isSystem hT hn (by decide)),
    if_neg (ne_of_isSystem hT hn (by decide)), if_neg (not_or.2 ⟨hid, hrev⟩)]

/-- **A new revision shows in the stored form under `_rev` and nowhere else.** -/
theorem wrapped_withRevision (hT : T.Faithful fields Valid) (he : Valid e) {style : Style}
    (hc : style.classField ≠ "_rev") (className : ClassName) (rev : Revision) :
    wrapped style className (T.members (T.withRevision e rev))
      = (wrapped style className (T.members e)).insert "_rev" (.str rev.text) := by
  have hrev := hT.valid_withRevision e he rev
  refine Table.ext sorted_wrapped (Table.sorted_insert sorted_wrapped) fun name => ?_
  rw [Table.get?_insert "_rev"]
  by_cases hname : name = "_rev"
  · rw [if_pos hname, hname, get?_rev_wrapped hT hrev hc, hT.get?_revision_withRevision he]
    rfl
  rw [if_neg hname]
  by_cases hclass : name = style.classField
  · rw [wrapped, wrapped, Table.get?_insert, Table.get?_insert, if_pos hclass, if_pos hclass]
  · rw [get?_wrapped (hT.sorted _ hrev) (plain_members hT hrev) hclass,
      get?_wrapped (hT.sorted e he) (plain_members hT he) hclass, if_neg hname, if_neg hname,
      hT.get?_withRevision e he rev "id" (by decide)]
    refine if_congr Iff.rfl rfl ?_
    by_cases hdomain : name = "id" ∨ name = "revision"
    · rw [if_pos hdomain, if_pos hdomain]
    · rw [if_neg hdomain, if_neg hdomain, hT.get?_withRevision e he rev name fun h => hdomain (.inr h)]

/-- **What an entity is encoded as carries its members.** -/
theorem carries_wrapped (hT : T.Faithful fields Valid) (he : Valid e) {style : Style}
    (hfree : FreeField fields style.classField) (className : ClassName) :
    Carries style.classField fields (wrapped style className (T.members e)) (T.members e) where
  sorted := sorted_wrapped
  get?_id := get?_id_wrapped hT he hfree.1 className
  get?_rev := get?_rev_wrapped hT he hfree.2.1 className
  get?_domain name hn hc := get?_wrapped_domain hn hc
  get?_other name hn hid hrev := by
    have hc : name ≠ style.classField := by
      rintro rfl
      exact (hfree.2.2 hn).elim hid hrev
    rw [get?_field_wrapped hT he hn hid hrev hc]
    exact agrees_filter_goesOut _ _

end Faithful

/-- **Round trip of the stock entities:** each is encoded, and decoded again from what it was encoded as. -/
theorem decode_encode_stock (e : StockEntity) (he : e.Fits) (style : Style) (className : ClassName)
    (hfree : FreeField e.kind.fields style.classField) :
    ∃ wire, encode style className e.toJson = .ok wire ∧
      decode e.kind.type.reader style.classField wire = .ok e := by
  have hT := e.kind.faithful
  exact ⟨_, encode_eq hT ⟨rfl, he⟩ style className,
    decode_of_carries hT ⟨rfl, he⟩ hfree (carries_wrapped hT ⟨rfl, he⟩ hfree className)⟩

/-- A note with nulls on top and inside, under the policy that leaves nulls out, its class standing under `id`. -/
theorem decode_encode_stock_note :
    ∃ wire, encode ⟨"id", .omit⟩ ⟨"N"⟩
        (StockEntity.note ⟨⟨"a"⟩, some ⟨"1-x"⟩, none, ["", "t"], .obj [("k", .null), ("l", .arr [.null])]⟩).toJson
          = .ok wire ∧
      decode EntityKind.note.type.reader "id" wire
        = .ok (.note ⟨⟨"a"⟩, some ⟨"1-x"⟩, none, ["", "t"], .obj [("k", .null), ("l", .arr [.null])]⟩) := by
  refine decode_encode_stock
    (.note ⟨⟨"a"⟩, some ⟨"1-x"⟩, none, ["", "t"], .obj [("k", .null), ("l", .arr [.null])]⟩) ?_ ⟨"id", .omit⟩ ⟨"N"⟩ ?_
  · refine ⟨List.Pairwise.cons ?_ (List.pairwise_singleton ..), trivial, ⟨trivial, trivial⟩, trivial⟩
    intro m hm
    obtain rfl := List.mem_singleton.1 hm
    decide
  · exact ⟨by decide, by decide, fun _ => .inl rfl⟩

end Envelope
end DocClient
