/-
# Free-form objects through the envelope

An object need not be that of an entity type to be put into an envelope: it only has to have an `id`. The envelope and
the domain are then two forms of one object. Coming in after going out, an object loses the nulls that are left out and
nothing else (`domain_wrapped`); going out after coming in, a stored object is what it was, to the last member
(`wrapped_domain`). For that no two members may meet under one name on the way:

| where members could meet | why they do not |
| --- | --- |
| under `_id` and `_rev`, going out | the object has no name with an underscore |
| under the class field, going out | the object has no such member but perhaps `id` or `revision`, which have moved |
| under `id` and `revision`, coming in | the stored object has no such member but perhaps its class, which is left out |
-/

import DocClient.Proofs.Envelope.RoundTrip

namespace DocClient
namespace Envelope

/-- An object as the domain has it: it has a name, and no member with an underscore. -/
structure IsFreeForm (o : Object) : Prop where
  canonical : (Json.obj o).Canonical
  named : (o.get? "id").isSome
  plain : ∀ m ∈ o, isSystem m.1 = false

/-- An object as it is stored under a class: with an underscore it has nothing but its name, perhaps its revision and
perhaps its class, and under the names of the domain for the two it has nothing but perhaps its class. -/
structure IsStored (classField : String) (className : ClassName) (wire : Object) : Prop where
  canonical : (Json.obj wire).Canonical
  named : (wire.get? "_id").isSome
  classed : wire.get? classField = some (.str className.text)
  rev : wire.get? "_rev" ≠ some .null
  system : ∀ m ∈ wire, isSystem m.1 → m.1 = "_id" ∨ m.1 = "_rev" ∨ m.1 = classField
  undisputed : ∀ m ∈ wire, m.1 = "id" ∨ m.1 = "revision" → m.1 = classField

/-- A member of the domain that is not left out: the name in any case, a revision that is not null, and of the others
those that the policy does not leave out. -/
def staysIn (policy : NullPolicy) (m : String × Json) : Bool :=
  if m.1 = "id" then true else if m.1 = "revision" then isPresent m.2 else goesOut policy m.2

variable {o wire : Object} {style : Style} {className : ClassName} {classField : String}

/-- **An object comes in again as it went out,** but for the nulls that were left out. -/
theorem domain_wrapped (ho : IsFreeForm o) (hfree : FreeField (o.map Prod.fst) style.classField) :
    domain (some style.classField) (wrapped style className o) = o.filter (staysIn style.nullFields) := by
  obtain ⟨hfreeId, hfreeRev, hfreeKey⟩ := hfree
  have hs : o.Sorted := ho.canonical.1
  have habsent : ∀ {own : String}, own = "id" ∨ own = "revision" → some own ≠ some style.classField →
      (wrapped style className o).get? own = none :=
    fun hown hclass => get?_wrapped_domain hown fun heq => hclass (congrArg some heq)
  refine Table.ext (sorted_rename _ _) (Table.sorted_filter hs _) fun key => ?_
  rw [Table.get?_filter hs]
  by_cases hid : key = "id"
  · subst hid
    rw [get?_domain_moved sorted_wrapped (.inl ⟨rfl, rfl⟩) (habsent (.inl rfl)),
      get?_wrapped hs ho.plain (Ne.symm hfreeId), if_pos rfl]
    cases o.get? "id" <;> rfl
  by_cases hrev : key = "revision"
  · subst hrev
    rw [get?_domain_moved sorted_wrapped (.inr ⟨rfl, rfl⟩) (habsent (.inr rfl)),
      get?_wrapped hs ho.plain (Ne.symm hfreeRev), if_neg (by decide), if_pos rfl]
    rfl
  · have hstays : (fun v => staysIn style.nullFields (key, v)) = goesOut style.nullFields := by
      funext v
      simp [staysIn, hid, hrev]
    rw [get?_domain_other sorted_wrapped hid hrev, hstays]
    split
    · rename_i hleft
      have hmissing : o.get? key = none := by
        refine Table.get?_eq_none fun m hm hkey => ?_
        rcases hleft with hclass | hsystem
        · obtain rfl := Option.some.inj hclass
          exact (hfreeKey (hkey ▸ List.mem_map_of_mem hm)).elim hid hrev
        · exact absurd hsystem (by simp [← hkey, ho.plain m hm])
      rw [hmissing, Option.filter_none]
    · rename_i hkept
      obtain ⟨hclass, hsystem⟩ := not_or.1 hkept
      have hstoredId : key ≠ "_id" := fun heq => hsystem (heq ▸ by decide)
      have hstoredRev : key ≠ "_rev" := fun heq => hsystem (heq ▸ by decide)
      rw [get?_wrapped hs ho.plain fun heq => hclass (congrArg some heq), if_neg hstoredId, if_neg hstoredRev,
        if_neg (not_or.2 ⟨hid, hrev⟩)]

/-- What comes in of a stored object is an object of the domain. -/
theorem isFreeForm_domain (hw : IsStored classField className wire) : IsFreeForm (domain (some classField) wire) := by
  have hs : wire.Sorted := hw.canonical.1
  refine ⟨⟨sorted_rename _ _, canonical_rename hw.canonical.2⟩, ?_, fun m => isSystem_of_mem_domain hs⟩
  rw [get?_domain_renamed hs (.inl ⟨rfl, rfl⟩), Option.isSome_or, hw.named, Bool.or_true]

/-- **A stored object goes out again as it came in.** -/
theorem wrapped_domain (hw : IsStored classField className wire) :
    wrapped ⟨classField, .keep⟩ className (domain (some classField) wire) = wire := by
  have hs : wire.Sorted := hw.canonical.1
  have ho := isFreeForm_domain hw
  have habsent : ∀ {own : String}, own = "id" ∨ own = "revision" → some own ≠ some classField →
      wire.get? own = none := by
    intro own hown hclass
    exact Table.get?_eq_none fun m hm hkey => hclass (hkey ▸ congrArg some (hw.undisputed m hm (hkey ▸ hown)))
  refine Table.ext sorted_wrapped hs fun key => ?_
  by_cases hclass : key = classField
  · rw [hclass, hw.classed, wrapped, Table.get?_insert, if_pos rfl]
  rw [get?_wrapped ho.canonical.1 ho.plain hclass]
  by_cases hid : key = "_id"
  · rw [if_pos hid, hid, get?_domain_moved hs (.inl ⟨rfl, rfl⟩) (habsent (.inl rfl))]
  by_cases hrev : key = "_rev"
  · rw [if_neg hid, if_pos hrev, hrev, get?_domain_moved hs (.inr ⟨rfl, rfl⟩) (habsent (.inr rfl))]
    exact (agrees_filter_isPresent _).resolve_right fun h => hw.rev h.2
  rw [if_neg hid, if_neg hrev]
  by_cases hown : key = "id" ∨ key = "revision"
  · rw [if_pos hown, habsent hown fun heq => hclass (Option.some.inj heq)]
  · obtain ⟨hownId, hownRev⟩ := not_or.1 hown
    have hkeeps : ∀ v : Option Json, v.filter (goesOut .keep) = v := by
      rintro (_ | v) <;> simp [goesOut]
    rw [if_neg hown, get?_domain_other hs hownId hownRev, hkeeps]
    split
    · rename_i hleft
      refine (Table.get?_eq_none fun m hm hkey => ?_).symm
      have hsystem := hleft.resolve_left fun heq => hclass (Option.some.inj heq)
      rcases hw.system m hm (hkey ▸ hsystem) with heq | heq | heq
      · exact hid (hkey ▸ heq)
      · exact hrev (hkey ▸ heq)
      · exact hclass (hkey ▸ heq)
    · rfl

/-- An object of the domain goes out. -/
theorem encode_obj (ho : IsFreeForm o) (style : Style) (className : ClassName) :
    encode style className (.obj o) = .ok (wrapped style className o) := by
  have hcontains : (rename (outgoing? style.nullFields) o).contains "_id" = true := by
    rw [Table.contains, get?_outgoing ho.canonical.1 ho.plain, if_pos rfl, ho.named]
  simp [encode, members, wrapped, hcontains]

/-- A stored object comes in as an object. -/
theorem decode_json (hc : Json.CanonicalMembers wire) (classField : String) :
    decode Reader.json classField wire = .ok (.obj (domain (some classField) wire)) := by
  have hcanonical : (Json.obj (domain (some classField) wire)).Canonical :=
    ⟨sorted_rename _ _, canonical_rename hc⟩
  have hread : Reader.ofJson Reader.json (.obj (domain (some classField) wire))
      = .ok (.obj (domain (some classField) wire)) := Reader.json_ofJson rfl hcanonical
  rw [decode, hread, Outcome.ofRead_ok]

theorem canonicalMembers_wrapped (hc : Json.CanonicalMembers o) :
    Json.CanonicalMembers (wrapped style className o) := by
  have hclass : (Json.str className.text).Canonical := trivial
  exact (canonical_rename hc).insert (sorted_rename _ _) hclass style.classField

/-- **The envelope and the domain are two forms of one object.** An object of the domain goes out, and comes in again
without the nulls that are left out, whatever class field it leaves free; a stored object comes in and, where nulls are
kept, goes out again as it was, whatever the class field; and what is no object does not go out. -/
theorem free_form_both_ways :
    (∀ (style : Style) (className : ClassName) (o : Object), IsFreeForm o →
      FreeField (o.map Prod.fst) style.classField →
      ∃ wire, encode style className (.obj o) = .ok wire
        ∧ decode Reader.json style.classField wire = .ok (.obj (o.filter (staysIn style.nullFields))))
    ∧ (∀ (classField : String) (className : ClassName) (wire : Object), IsStored classField className wire →
      ∃ v, decode Reader.json classField wire = .ok v ∧ encode ⟨classField, .keep⟩ className v = .ok wire)
    ∧ ∀ (style : Style) (className : ClassName) (v : Json), v.obj? = none →
      encode style className v = .error (.codec ("expected a JSON object, got " ++ v.sort)) := by
  refine ⟨fun style className o ho hfree => ?_, fun classField className wire hw => ?_, fun style className v hv => ?_⟩
  · refine ⟨_, encode_obj ho style className, ?_⟩
    rw [decode_json (canonicalMembers_wrapped ho.canonical.2), domain_wrapped ho hfree]
  · refine ⟨_, decode_json hw.canonical.2 classField, ?_⟩
    rw [encode_obj (isFreeForm_domain hw), wrapped_domain hw]
  · cases v <;> first | rfl | exact nomatch hv

/-- An object with a member of each kind: nulls on top and inside, and the name and the revision among them. -/
def sampleFreeForm : Object := [("id", .null), ("list", .arr [.null]), ("note", .null), ("revision", .null)]

/-- A stored object whose class stands under `id`, with a null of its own. -/
def sampleStored : Object := [("_id", .str "a"), ("_rev", .str "1-x"), ("id", .str "N"), ("note", .null)]

/-- Of the sample only the list and the name come in again; the stored sample goes out again as it was. -/
theorem free_form_both_ways_samples :
    (∃ wire, encode ⟨"revision", .omit⟩ ⟨"N"⟩ (.obj sampleFreeForm) = .ok wire
      ∧ decode Reader.json "revision" wire = .ok (.obj [("id", .null), ("list", .arr [.null])]))
    ∧ (∃ v, decode Reader.json "id" sampleStored = .ok v ∧ encode ⟨"id", .keep⟩ ⟨"N"⟩ v = .ok sampleStored)
    ∧ encode ⟨"id", .keep⟩ ⟨"N"⟩ (.arr []) = .error (.codec "expected a JSON object, got array") := by
  obtain ⟨hdomain, hstored, hother⟩ := free_form_both_ways
  have hsortedFreeForm : sampleFreeForm.Sorted := by decide
  have hsortedStored : sampleStored.Sorted := by decide
  refine ⟨hdomain ⟨"revision", .omit⟩ ⟨"N"⟩ sampleFreeForm ⟨⟨hsortedFreeForm, ?_⟩, rfl, by decide⟩ ?_,
    hstored "id" ⟨"N"⟩ sampleStored ⟨⟨hsortedStored, ?_⟩, rfl, rfl, by decide, by decide, by decide⟩,
    hother ⟨"id", .keep⟩ ⟨"N"⟩ (.arr []) rfl⟩
  · exact ⟨trivial, ⟨trivial, trivial⟩, trivial, trivial, trivial⟩
  · exact ⟨by decide, by decide, fun _ => .inr rfl⟩
  · exact ⟨trivial, trivial, trivial, trivial, trivial⟩

end Envelope
end DocClient
