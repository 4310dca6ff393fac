/-
# Design documents under both spellings of their names

The name of a design document is its id, or what is left of the id without the prefix. Wherever the prefix is put on and
taken off, it is put on and taken off once (`CalledBy`):

| id | name | segments of its path | `_id` of its body | id that is read back |
| --- | --- | --- | --- | --- |
| `d` | `d` | `_design`, `d` | `_design/d` | `d` |
| `_design/d` | `d` | `_design`, `d` | `_design/d` | `d` |
| `_design/_design/d` | `_design/d` | `_design`, `_design/d` | `_design/_design/d` | `_design/d` |

The body has the members of the design document but for the nulls (`DesignDocument.WrittenAs`), and what is read back
from it is the design document under its name (`Client.design_documents_agree`). A name that has no prefix itself can be
spelled in two ways, and both come to the same document.
-/

import DocClient.Proofs.Client
import DocClient.Proofs.Envelope.Renaming
import DocClient.Proofs.Store.Records

namespace DocClient

namespace Envelope

/-- What is left of a text without a prefix is what comes behind the prefix. -/
theorem dropPrefix?_eq_some_iff {lead s rest : String} : dropPrefix? lead s = some rest ↔ s = lead ++ rest := by
  rw [dropPrefix?]
  constructor
  · intro h
    split at h
    · rename_i hprefix
      obtain ⟨behind, hbehind⟩ := List.isPrefixOf_iff_prefix.1 hprefix
      obtain rfl := Option.some.inj h
      rw [← String.toList_inj, String.toList_append, String.toList_ofList, ← hbehind, ← String.length_toList,
        List.drop_left]
    · exact nomatch h
  · rintro rfl
    have hprefix : lead.toList.isPrefixOf (lead ++ rest).toList = true := by
      rw [String.toList_append]
      exact List.isPrefixOf_iff_prefix.2 (List.prefix_append _ _)
    rw [if_pos hprefix, String.toList_append, ← String.length_toList, List.drop_left, String.ofList_toList]

theorem dropPrefix?_append (lead rest : String) : dropPrefix? lead (lead ++ rest) = some rest :=
  dropPrefix?_eq_some_iff.2 rfl

/-- A text has nothing to lose without the prefix. -/
theorem dropPrefix?_eq_none_iff {lead s : String} : dropPrefix? lead s = none ↔ ∀ rest, s ≠ lead ++ rest := by
  simp only [Option.eq_none_iff_forall_ne_some, ne_eq, dropPrefix?_eq_some_iff]

end Envelope

open Envelope

/-- **A design document is called by a name** under the id that is the name behind the prefix, and under the name itself
if it does not begin with the prefix. -/
def CalledBy (id : DocId) (name : String) : Prop :=
  id.text = designPrefix ++ name ∨ (id.text = name ∧ ∀ rest, name ≠ designPrefix ++ rest)

/-- Every design document is called by one name: its id without the prefix, if it has it. -/
theorem calledBy_iff {id : DocId} {name : String} :
    CalledBy id name ↔ (dropPrefix? designPrefix id.text).getD id.text = name := by
  cases hdrop : dropPrefix? designPrefix id.text with
  | none =>
    have hplain := dropPrefix?_eq_none_iff.1 hdrop
    constructor
    · rintro (h | ⟨h, -⟩)
      · exact absurd h (hplain name)
      · exact h
    · rintro rfl
      exact .inr ⟨rfl, hplain⟩
  | some rest =>
    have htext := dropPrefix?_eq_some_iff.1 hdrop
    constructor
    · rintro (h | ⟨h, hplain⟩)
      · rw [h, dropPrefix?_append] at hdrop
        exact (Option.some.inj hdrop).symm
      · exact absurd (h.symm.trans htext) (hplain rest)
    · rintro rfl
      exact .inl htext

/-- A name that is not blank is the name that is asked for. -/
theorem designName_eq {id : DocId} {name : String} (hname : CalledBy id name) (hblank : Text.isBlank name = false) :
    designName id = .ok name := by
  have hid : id.isBlank = false := by
    rw [DocId.isBlank]
    rcases hname with h | ⟨h, -⟩
    · rw [h, Text.isBlank, String.toList_append, List.all_append]
      rfl
    · rwa [h]
  simp only [designName, requireId, hid, forbid_false, Outcome.ok_bind, calledBy_iff.1 hname, hblank]
  rfl

namespace DesignDocument

/-- No part of a design document has a name of the server's. -/
theorem isSystem_of_mem_members (d : DesignDocument) {m : String × Json} (hm : m ∈ d.members) :
    isSystem m.1 = false := by
  have hnames : ∀ name ∈ d.parts.map Prod.fst, isSystem name = false := by
    simp only [parts, List.map_cons, List.map_nil]
    decide
  obtain ⟨part, hpart, hm⟩ := List.mem_filterMap.1 (Table.mem_of_mem_ofList hm)
  obtain ⟨v, -, rfl⟩ := Option.map_eq_some_iff.1 hm
  exact hnames _ (List.mem_map_of_mem hpart)

/-- No part of a design document is written as null, but for a missing revision. -/
theorem ne_null_of_get?_members (d : DesignDocument) {key : String} (hkey : key ≠ "revision") :
    d.members.get? key ≠ some .null := by
  have hmap : ∀ {α : Type} (a : Option α) {write : α → Json}, (∀ x, write x ≠ .null) → a.map write ≠ some .null := by
    intro α a write hwrite h
    obtain ⟨x, -, hx⟩ := Option.map_eq_some_iff.1 h
    exact hwrite x hx
  have htable : ∀ {α : Type} (write : α → Json) (t : Table α), Json.ofTable? write t ≠ some .null := by
    intro α write t
    rw [Json.ofTable?]
    split <;> simp [Json.ofTable]
  have hparts : ∀ p ∈ d.parts, p.1 ≠ "revision" → p.2 ≠ some .null := by
    simp only [parts, List.forall_mem_cons]
    exact ⟨by simp, by simp, by simp, fun _ => hmap _ (by simp), fun _ => hmap _ (by simp), fun _ => htable _ _,
      fun _ => htable _ _, fun _ => hmap _ (by simp), fun _ => htable _ _, by simp⟩
  intro hnull
  rw [get?_members, Option.join_eq_some_iff] at hnull
  obtain ⟨before, after, hsplit, -⟩ := List.lookup_eq_some_iff.1 hnull
  exact hparts _ (hsplit ▸ List.mem_append_right _ (List.mem_cons_self ..)) hkey rfl

/-- Under another id only the id is written differently. -/
theorem get?_members_withId (d : DesignDocument) (id : DocId) {key : String} (hkey : key ≠ "id") :
    ({ d with id } : DesignDocument).members.get? key = d.members.get? key := by
  simp only [get?_members, parts, List.lookup_cons, beq_false_of_ne hkey]

/-- **The body of a design document that is called by a name:** the name behind the prefix, the revision if there is
one, and what else the design document is written with. -/
structure WrittenAs (d : DesignDocument) (name : String) (body : Object) : Prop where
  sorted : body.Sorted
  get?_id : body.get? "_id" = some (.str (designPrefix ++ name))
  get?_rev : body.get? "_rev" = d.revision.map fun rev => .str rev.text
  get?_own : body.get? "id" = none ∧ body.get? "revision" = none
  get?_other : ∀ key, key ≠ "_id" → key ≠ "_rev" → key ≠ "id" → key ≠ "revision" →
    body.get? key = d.members.get? key

variable {d : DesignDocument} {name : String} {body : Object}

/-- No member of a body is null, and but for the name and the revision it is one of the design document. -/
theorem WrittenAs.of_mem (h : d.WrittenAs name body) {m : String × Json} (hm : m ∈ body) :
    m.2 ≠ .null ∧ (m.1 = "_id" ∨ m.1 = "_rev" ∨ m ∈ d.members) := by
  obtain ⟨key, v⟩ := m
  have hget := (Table.get?_eq_some_iff h.sorted).2 hm
  by_cases hid : key = "_id"
  · rw [hid, h.get?_id] at hget
    obtain rfl := Option.some.inj hget
    exact ⟨nofun, .inl hid⟩
  by_cases hrev : key = "_rev"
  · rw [hrev, h.get?_rev] at hget
    obtain ⟨rev, -, rfl⟩ := Option.map_eq_some_iff.1 hget
    exact ⟨nofun, .inr (.inl hrev)⟩
  have hownId : key ≠ "id" := by
    rintro rfl
    exact nomatch h.get?_own.1.symm.trans hget
  have hownRev : key ≠ "revision" := by
    rintro rfl
    exact nomatch h.get?_own.2.symm.trans hget
  rw [h.get?_other key hid hrev hownId hownRev] at hget
  refine ⟨?_, .inr (.inr (Table.mem_of_get?_eq_some hget))⟩
  rintro rfl
  exact d.ne_null_of_get?_members hownRev hget

/-- A body with a revision put in is the body of the design document at the revision. -/
theorem WrittenAs.withRevision (h : d.WrittenAs name body) (rev : Revision) :
    ({ d with revision := some rev } : DesignDocument).WrittenAs name (body.insert "_rev" (.str rev.text)) where
  sorted := Table.sorted_insert h.sorted
  get?_id := by rw [Table.get?_insert, if_neg (by decide), h.get?_id]
  get?_rev := by rw [Table.get?_insert, if_pos rfl]; rfl
  get?_own := by
    rw [Table.get?_insert, Table.get?_insert, if_neg (by decide), if_neg (by decide)]
    exact h.get?_own
  get?_other key hid hrev hownId hownRev := by
    rw [Table.get?_insert, if_neg hrev, h.get?_other key hid hrev hownId hownRev]
    simp only [get?_members, parts, List.lookup_cons, beq_false_of_ne hownRev]

/-- **What is read back from a body** is the design document under its name. -/
theorem WrittenAs.decodeDesign_eq (h : d.WrittenAs name body) (hd : d.Fits) :
    decodeDesign reader body = .ok { d with id := ⟨name⟩ } := by
  have hid : (domain none body).get? "id" = some (.str (designPrefix ++ name)) := by
    rw [get?_domain_moved h.sorted (.inl ⟨rfl, rfl⟩) fun _ => h.get?_own.1, h.get?_id]
  have hreads : reader.ofJson (.obj ((domain none body).insert "id" (.str name))) = .ok { d with id := ⟨name⟩ } := by
    have hfits : ({ d with id := ⟨name⟩ } : DesignDocument).Fits := ⟨hd.options, hd.filters, hd.updates, hd.views⟩
    refine reads hfits (Table.sorted_insert (sorted_rename _ _)) (.inr ?_) ?_
    · rw [Table.get?_insert, if_neg (by decide), get?_domain_moved h.sorted (.inr ⟨rfl, rfl⟩) fun _ => h.get?_own.2,
        h.get?_rev]
    · intro key hrev
      rw [Table.get?_insert]
      by_cases hkey : key = "id"
      · rw [if_pos hkey, hkey, get?_members]
        rfl
      · rw [if_neg hkey, get?_members_withId _ _ hkey, get?_domain_other h.sorted hkey hrev]
        split
        · rename_i hsystem
          have hsystem := hsystem.resolve_left nofun
          refine (Table.get?_eq_none fun m hm heq => ?_).symm
          rw [← heq, d.isSystem_of_mem_members hm] at hsystem
          exact Bool.false_ne_true hsystem
        · rename_i hplain
          have hsystem : ∀ {stored}, isSystem stored = true → key ≠ stored :=
            fun hstored heq => hplain (.inr (heq ▸ hstored))
          exact h.get?_other key (hsystem (by decide)) (hsystem (by decide)) hkey hrev
  rw [decodeDesign]
  simp only [hid, dropPrefix?_append, hreads, Outcome.ofRead_ok]

/-- The stored form of a design document that is called by a name. -/
def stored (d : DesignDocument) (name : String) : Object :=
  rename (outgoing? .omit) ({ d with id := ⟨designPrefix ++ name⟩ } : DesignDocument).members

/-- What a design document goes out as, name by name. -/
theorem get?_outgoing_members (d : DesignDocument) (key : String) :
    (rename (outgoing? .omit) d.members).get? key
      = if key = "_id" then some (.str d.id.text)
        else if key = "_rev" then d.revision.map fun rev => .str rev.text
        else if key = "id" ∨ key = "revision" then none
        else d.members.get? key := by
  have hid : d.members.get? "id" = some (.str d.id.text) := d.get?_members "id"
  have hrev : (d.members.get? "revision").filter isPresent = d.revision.map fun rev => .str rev.text := by
    have hwritten : d.members.get? "revision" = some (Json.ofRevision? d.revision) := d.get?_members "revision"
    rw [hwritten]
    cases d.revision <;> rfl
  have hother : key ≠ "revision" → (d.members.get? key).filter (goesOut .omit) = d.members.get? key := fun hkey =>
    (agrees_filter_goesOut _ _).resolve_right fun h => d.ne_null_of_get?_members hkey h.2
  rw [get?_outgoing d.sorted_members fun m => d.isSystem_of_mem_members, hid, hrev]
  refine if_congr Iff.rfl rfl (if_congr Iff.rfl rfl ?_)
  by_cases hown : key = "id" ∨ key = "revision"
  · rw [if_pos hown, if_pos hown]
  · rw [if_neg hown, if_neg hown, hother fun h => hown (.inr h)]

theorem writtenAs_stored (d : DesignDocument) (name : String) : d.WrittenAs name (d.stored name) where
  sorted := sorted_rename _ _
  get?_id := by rw [stored, get?_outgoing_members, if_pos rfl]
  get?_rev := by rw [stored, get?_outgoing_members, if_neg (by decide), if_pos rfl]
  get?_own := by
    constructor <;> rw [stored, get?_outgoing_members, if_neg (by decide), if_neg (by decide), if_pos (by decide)]
  get?_other key hid hrev hownId hownRev := by
    rw [stored, get?_outgoing_members, if_neg hid, if_neg hrev, if_neg (not_or.2 ⟨hownId, hownRev⟩),
      get?_members_withId _ _ hownId]

/-- **A design document is stored under its name**, whichever way its id spells it. -/
theorem encodeDesign_eq (hname : CalledBy d.id name) : encodeDesign d.toJson = .ok (d.stored name) := by
  have hid : (rename (outgoing? .omit) d.members).get? "_id" = some (.str d.id.text) := by
    rw [get?_outgoing_members, if_pos rfl]
  simp only [encodeDesign, toJson_eq, Envelope.members, Outcome.ok_bind, hid]
  rcases hname with htext | ⟨htext, hplain⟩
  · have hsame : d.stored name = rename (outgoing? .omit) d.members := by
      rw [stored, ← htext]
    rw [htext, dropPrefix?_append, hsame]
    rfl
  · have hprefixed : (rename (outgoing? .omit) d.members).insert "_id" (.str (designPrefix ++ name))
        = d.stored name := by
      refine Table.ext (Table.sorted_insert (sorted_rename _ _)) (sorted_rename _ _) fun key => ?_
      rw [Table.get?_insert, stored, get?_outgoing_members, get?_outgoing_members]
      split
      · rfl
      · refine if_congr Iff.rfl rfl ?_
        by_cases hown : key = "id" ∨ key = "revision"
        · rw [if_pos hown, if_pos hown]
        · rw [if_neg hown, if_neg hown]
          exact (get?_members_withId d _ fun h => hown (.inl h)).symm
    rw [htext, dropPrefix?_eq_none_iff.2 hplain, hprefixed]
    rfl

end DesignDocument

/-- What is asked about a design document is asked about its name. -/
theorem Plan.of_designName {α : Type} {id : DocId} {name : String} (hname : CalledBy id name)
    (hblank : Text.isBlank name = false) (rest : String → Prepared (Call α)) :
    Plan.of (do let name ← .of (designName id); rest name) = Plan.of (rest name) := by
  funext routes
  simp only [Plan.of, Prepared.run_bind, Prepared.run_of, designName_eq hname hblank]

namespace Client

/-- **A design document is asked for by a name** under an id: it is read, deleted and its views are asked for at the
path of the name. -/
structure AddressesDesign (c : Client) (db : DatabaseName) (name : String) (id : DocId) : Prop where
  reads : ∀ routes, (c.getDesign db id routes).1.request?
    = c.request? .get [db.text, "_design", name] (some ({} : ReadOptions).query) none
  deletes : ∀ (revision : Revision) batch routes, (c.deleteDesign db id revision batch routes).1.request?
    = if revision.isBlank then none
      else c.request? .delete [db.text, "_design", name]
        (some (("rev", revision.text) :: if batch then [("batch", "ok")] else [])) none
  views : ∀ view request routes, (c.rawView db id view request routes).1.request?
    = if Text.isBlank view then none
      else c.request? .post [db.text, "_design", name, "_view", view] none (some request.toJson)

variable (c : Client) (db : DatabaseName) {id : DocId} {d : DesignDocument} {name : String}

/-- A design document is asked for by its name. -/
theorem addressesDesign (hname : CalledBy id name) (hblank : Text.isBlank name = false) :
    c.AddressesDesign db name id where
  reads routes := by
    rw [getDesign, getDesignWithSystem, Plan.of_designName hname hblank]
    simp only [Plan.of, Prepared.run_pure, Call.request?_andThen, readDocument, request?_call, designPath]
  deletes revision batch routes := by
    rw [deleteDesign, Plan.of_designName hname hblank]
    cases revision.isBlank with
    | true => simp only [Plan.of, Prepared.run_bind, Prepared.run_of, forbid_true, Call.request?, if_true]
    | false =>
      simp only [Plan.of, Prepared.run_bind, Prepared.run_of, forbid_false, Prepared.run_pure, deleteDocument,
        request?_call, designPath, Bool.false_eq_true, if_false]
  views view request routes := by
    rw [rawView, Plan.of_designName hname hblank]
    cases Text.isBlank view with
    | true => simp only [Plan.of, Prepared.run_bind, Prepared.run_of, forbid_true, Call.request?, if_true]
    | false =>
      simp only [Plan.of, Prepared.run_bind, Prepared.run_of, forbid_false, Prepared.run_pure, request?_call,
        designPath, List.cons_append, List.nil_append, Bool.false_eq_true, if_false]

/-- A design document is put to the path of its name. -/
theorem request?_upsertDesign (hname : CalledBy d.id name) (hblank : Text.isBlank name = false) (routes : Routes) :
    (c.upsertDesign db d routes).1.request?
      = c.request? .put [db.text, "_design", name] (some []) (some (.obj (d.stored name))) := by
  rw [upsertDesign, Plan.of_designName hname hblank]
  simp only [Plan.of, Prepared.run_bind, Prepared.run_of, Prepared.run_pure, DesignDocument.encodeDesign_eq hname,
    putDocument, request?_call, designPath]
  rfl

/-- **A design document agrees with itself in its path, its body and what is read back**, whatever its id and whatever
it has. It is put to the path of its name, with a body that has its members but for the nulls, and is read back from the
body under its name, at the revision that was put in. Every id that it is called by comes to the same document, and a
name without the prefix is such an id with the prefix and without. -/
theorem design_documents_agree (hname : CalledBy d.id name) (hblank : Text.isBlank name = false) :
    ∃ body, d.WrittenAs name body
      ∧ (∀ m ∈ body, m.2 ≠ .null ∧ (m.1 = "_id" ∨ m.1 = "_rev" ∨ m ∈ d.members))
      ∧ (∀ routes, (c.upsertDesign db d routes).1.request?
        = c.request? .put [db.text, "_design", name] (some []) (some (.obj body)))
      ∧ ((Url.parse? (c.locate [db.text, "_design", name])).isSome → ∀ routes,
        ∃ r, (c.upsertDesign db d routes).1.request? = some r ∧ r.method = .put ∧ r.body = some (.obj body))
      ∧ (d.Fits → decodeDesign DesignDocument.reader body = .ok { d with id := ⟨name⟩ }
        ∧ ∀ rev : Revision, decodeDesign DesignDocument.reader (body.insert "_rev" (.str rev.text))
          = .ok { d with id := ⟨name⟩, revision := some rev })
      ∧ (∀ id, CalledBy id name → c.AddressesDesign db name id
        ∧ ∀ routes, (c.upsertDesign db { d with id } routes).1.request? = (c.upsertDesign db d routes).1.request?)
      ∧ ((∀ rest, name ≠ designPrefix ++ rest) → CalledBy ⟨name⟩ name ∧ CalledBy ⟨designPrefix ++ name⟩ name) := by
  have hwritten := d.writtenAs_stored name
  have hput := fun routes => c.request?_upsertDesign db hname hblank routes
  refine ⟨d.stored name, hwritten, fun m => hwritten.of_mem, hput, fun hlocated routes => ?_,
    fun hd => ⟨hwritten.decodeDesign_eq hd, fun rev => ?_⟩,
    fun id hid => ⟨c.addressesDesign db hid hblank, fun routes => ?_⟩, fun hplain => ⟨?_, ?_⟩⟩
  · obtain ⟨url, hurl⟩ := Option.isSome_iff_exists.1 hlocated
    have hsent : c.request? .put [db.text, "_design", name] (some []) (some (.obj (d.stored name)))
        = some ((url.addPairs []).request .put c.user? (some (.obj (d.stored name)))) := by
      rw [request?, hurl]
      rfl
    obtain ⟨hmethod, hbody, -⟩ := sent_of_request? hsent
    exact ⟨_, (hput routes).trans hsent, hmethod, hbody⟩
  · exact (hwritten.withRevision rev).decodeDesign_eq ⟨hd.options, hd.filters, hd.updates, hd.views⟩
  · rw [hput]
    exact c.request?_upsertDesign db (d := { d with id }) hid hblank routes
  · exact .inr ⟨rfl, hplain⟩
  · exact .inl rfl

/-- A design document whose name has the prefix of ids. -/
def sampleTwice : DesignDocument := { sampleDesign with id := ⟨"_design/_design/d"⟩, revision := some ⟨"1-a"⟩ }

/-- A name with the prefix keeps it, and a name without it may be spelled with it. -/
theorem design_documents_agree_samples :
    (∃ body, sampleTwice.WrittenAs "_design/d" body
      ∧ decodeDesign DesignDocument.reader body = .ok { sampleTwice with id := ⟨"_design/d"⟩ })
    ∧ sample.AddressesDesign ⟨"db"⟩ "d" ⟨"_design/d"⟩
    ∧ (sample.upsertDesign ⟨"db"⟩ { sampleDesign with id := ⟨"_design/d"⟩ } .sample).1.request?
      = (sample.upsertDesign ⟨"db"⟩ sampleDesign .sample).1.request? := by
  have hfits : sampleDesign.Fits := ⟨fun _ ho => Option.some.inj ho ▸ canonical_sampleMembers, .nil, .nil, by decide⟩
  have htwice : CalledBy sampleTwice.id "_design/d" := .inl rfl
  have honce : CalledBy sampleDesign.id "d" := calledBy_iff.2 (by decide +kernel)
  constructor
  · obtain ⟨body, hwritten, -, -, -, hread, -⟩ := sample.design_documents_agree ⟨"db"⟩ htwice (by decide)
    exact ⟨body, hwritten, (hread ⟨hfits.options, hfits.filters, hfits.updates, hfits.views⟩).1⟩
  · obtain ⟨-, -, -, -, -, -, hspelled, hplain⟩ := sample.design_documents_agree ⟨"db"⟩ honce (by decide)
    have hprefixed : CalledBy ⟨"_design/d"⟩ "d" := (hplain (dropPrefix?_eq_none_iff.1 (by decide +kernel))).2
    exact ⟨(hspelled _ hprefixed).1, (hspelled _ hprefixed).2 .sample⟩

end Client
end DocClient
