/-
# Where the entries of a batch of reads go

The reply to a batch of reads is a list of items, each with its entries, and every entry goes onto one of three piles:

| entry | pile | lies there as |
| --- | --- | --- |
| a live document | the entities | what the dispatch decodes it as |
| a document that only says that it was deleted | the deleted documents | the name of its item, whatever its class |
| an error | the errors | itself |

The place of an entry on its pile is how many of the entries before it go onto the same pile, and at every place of a
pile lies one entry (`BatchRead.Places`): nothing is lost, doubled or moved past another. All this is so exactly if
every live document is decoded; otherwise the first in the reply that is not is the failure of the batch
(`Client.readBatchIn_sorted`).
-/

import DocClient.Proofs.Store.Found

namespace DocClient

/-- The three lists that the entries of a reply are told apart into. -/
inductive Pile where
  | entities
  | errors
  | deleted
deriving DecidableEq, Repr

namespace BatchEntry

/-- The pile that an entry goes onto. -/
def pile : BatchEntry → Pile
  | .error _ => .errors
  | .document d => if Envelope.isTombstone d then .deleted else .entities

theorem isSome_live? (entry : String × BatchEntry) : (live? entry).isSome = decide (entry.2.pile = .entities) := by
  obtain ⟨id, d | e⟩ := entry
  · cases hgone : Envelope.isTombstone d <;> simp [live?, pile, hgone]
  · simp [live?, pile]

theorem isSome_failure? (entry : String × BatchEntry) : (failure? entry).isSome = decide (entry.2.pile = .errors) := by
  obtain ⟨id, d | e⟩ := entry
  · cases hgone : Envelope.isTombstone d <;> simp [failure?, pile, hgone]
  · simp [failure?, pile]

theorem isSome_gone? (entry : String × BatchEntry) : (gone? entry).isSome = decide (entry.2.pile = .deleted) := by
  obtain ⟨id, d | e⟩ := entry
  · cases hgone : Envelope.isTombstone d <;> simp [gone?, pile, hgone]
  · simp [gone?, pile]

end BatchEntry

namespace BatchRead

open BatchEntry

variable {ε : Type} {D : Dispatch ε} {classField : String} {found : List (String × BatchEntry)} {b : BatchRead ε}

/-- How high a pile is. -/
def height (b : BatchRead ε) : Pile → Nat
  | .entities => b.entities.length
  | .errors => b.errors.length
  | .deleted => b.deleted.length

/-- How many of some entries go onto a pile. -/
def tally (found : List (String × BatchEntry)) (p : Pile) : Nat := found.countP fun entry => entry.2.pile = p

/-- An entry lies at a place of its pile. -/
inductive Lies (D : Dispatch ε) (classField : String) (b : BatchRead ε) (place : Nat) : String × BatchEntry → Prop where
  | live {id : String} {d : Object} {e : ε} (live : Envelope.isTombstone d = false)
      (decoded : D.decode d classField = .ok e) (there : b.entities[place]? = some e) :
      Lies D classField b place (id, .document d)
  | gone {id : String} {d : Object} (gone : Envelope.isTombstone d = true) (there : b.deleted[place]? = some ⟨id⟩) :
      Lies D classField b place (id, .document d)
  | failure {id : String} {e : BulkReadError} (there : b.errors[place]? = some e) :
      Lies D classField b place (id, .error e)

/-- **Where the entries of a reply are** in what comes of a batch. -/
structure Places (D : Dispatch ε) (classField : String) (found : List (String × BatchEntry)) (b : BatchRead ε) :
    Prop where
  /-- Every entry lies on its pile, after those of the earlier entries that go onto it. -/
  lies : ∀ i entry, found[i]? = some entry → Lies D classField b (tally (found.take i) entry.2.pile) entry
  /-- At every place of a pile one entry lies. -/
  filled : ∀ p place, place < b.height p →
    ∃! i, (∃ entry, found[i]? = some entry ∧ entry.2.pile = p) ∧ tally (found.take i) p = place
  /-- Of two entries on one pile the earlier one lies first. -/
  ordered : ∀ p i j entry other, found[i]? = some entry → found[j]? = some other → entry.2.pile = p →
    other.2.pile = p → (i < j ↔ tally (found.take i) p < tally (found.take j) p)

/-- Every live document among some entries is decoded. -/
def Decodes (D : Dispatch ε) (classField : String) (found : List (String × BatchEntry)) : Prop :=
  ∀ id d, (id, .document d) ∈ found → Envelope.isTombstone d = false → ∃ e, D.decode d classField = .ok e

/-- The first live document among some entries that is not decoded fails in a given way. -/
def FailsFirst (D : Dispatch ε) (classField : String) (found : List (String × BatchEntry)) (e : ClientError) : Prop :=
  ∃ before id d after, found = before ++ (id, .document d) :: after ∧ Decodes D classField before
    ∧ Envelope.isTombstone d = false ∧ D.decode d classField = .error e

section Lists

variable {α β : Type} {xs : List α}

/-- What is picked of an element stands after what is picked of the elements before it. -/
theorem getElem?_filterMap (kind : α → Option β) {i : Nat} {x : α} {y : β} (hx : xs[i]? = some x)
    (hy : kind x = some y) :
    (xs.filterMap kind)[((xs.take i).filterMap kind).length]? = some y := by
  obtain ⟨hi, rfl⟩ := List.getElem?_eq_some_iff.1 hx
  have hsplit : xs = xs.take i ++ xs[i] :: xs.drop (i + 1) := by
    rw [← List.drop_eq_getElem_cons hi, List.take_append_drop]
  have hpicked : xs.filterMap kind = (xs.take i).filterMap kind ++ y :: (xs.drop (i + 1)).filterMap kind := by
    conv_lhs => rw [hsplit]
    rw [List.filterMap_append, List.filterMap_cons_some hy]
  rw [hpicked, List.getElem?_append_right (Nat.le_refl _), Nat.sub_self, List.getElem?_cons_zero]

/-- Some element of a kind has as many of the kind before it as one likes, short of all. -/
theorem exists_countP_take {q : α → Bool} {k : Nat} (hk : k < xs.countP q) :
    ∃ i x, xs[i]? = some x ∧ q x = true ∧ (xs.take i).countP q = k := by
  induction xs generalizing k with
  | nil => simp at hk
  | cons x rest ih =>
    cases hx : q x with
    | false =>
      rw [List.countP_cons_of_neg (by simp [hx])] at hk
      obtain ⟨i, y, hy, hq, hcount⟩ := ih hk
      refine ⟨i + 1, y, hy, hq, ?_⟩
      rw [List.take_succ_cons, List.countP_cons_of_neg (by simp [hx]), hcount]
    | true =>
      rw [List.countP_cons_of_pos hx] at hk
      cases k with
      | zero => exact ⟨0, x, rfl, hx, rfl⟩
      | succ k =>
        obtain ⟨i, y, hy, hq, hcount⟩ := ih (Nat.lt_of_succ_lt_succ hk)
        refine ⟨i + 1, y, hy, hq, ?_⟩
        rw [List.take_succ_cons, List.countP_cons_of_pos hx, hcount]

/-- Later elements have more of a kind before them. -/
theorem countP_take_lt {q : α → Bool} {i j : Nat} {x : α} (hx : xs[i]? = some x) (hq : q x = true) (hij : i < j) :
    (xs.take i).countP q < (xs.take j).countP q := by
  have hnext : (xs.take (i + 1)).countP q = (xs.take i).countP q + 1 := by
    rw [List.take_add_one, hx, Option.toList_some, List.countP_append, List.countP_singleton, if_pos hq]
  have hle : (xs.take (i + 1)).countP q ≤ (xs.take j).countP q :=
    (List.take_sublist_take_left hij).countP_le
  omega

end Lists

/-- What is picked of the entries of a pile, and how many of them there are. -/
theorem length_filterMap_of_pile {β : Type} {kind : String × BatchEntry → Option β} {p : Pile}
    (h : ∀ entry, (kind entry).isSome = decide (entry.2.pile = p)) (found : List (String × BatchEntry)) :
    (found.filterMap kind).length = tally found p := by
  rw [List.length_filterMap_eq_countP, tally]
  exact List.countP_congr fun entry _ => by rw [h entry]

/-- A pile is as high as there are entries that go onto it. -/
theorem Tells.height_eq (h : Tells D classField found b) (p : Pile) : b.height p = tally found p := by
  cases p with
  | entities =>
    rw [← length_filterMap_of_pile isSome_live? found]
    exact Outcome.length_of_mapM h.entities
  | errors =>
    rw [← length_filterMap_of_pile isSome_failure? found, ← h.errors]
    rfl
  | deleted =>
    rw [← length_filterMap_of_pile isSome_gone? found, ← h.deleted]
    rfl

/-- Every entry lies on its pile, after those of the earlier entries that go onto it. -/
theorem Tells.lies (h : Tells D classField found b) {i : Nat} {entry : String × BatchEntry}
    (hentry : found[i]? = some entry) : Lies D classField b (tally (found.take i) entry.2.pile) entry := by
  obtain ⟨id, entry⟩ := entry
  cases entry with
  | error e =>
    have hthere := getElem?_filterMap failure? hentry rfl
    rw [length_filterMap_of_pile isSome_failure?, ← h.errors] at hthere
    exact .failure hthere
  | document d =>
    cases hgone : Envelope.isTombstone d with
    | true =>
      have hpile : (BatchEntry.document d).pile = .deleted := by simp [pile, hgone]
      have hentryGone : gone? (id, .document d) = some ⟨id⟩ := by simp [gone?, hgone]
      have hthere := getElem?_filterMap gone? hentry hentryGone
      rw [length_filterMap_of_pile isSome_gone?, ← h.deleted] at hthere
      rw [hpile]
      exact .gone hgone hthere
    | false =>
      have hpile : (BatchEntry.document d).pile = .entities := by simp [pile, hgone]
      have hentryLive : live? (id, .document d) = some d := by simp [live?, hgone]
      have hlive := getElem?_filterMap live? hentry hentryLive
      rw [length_filterMap_of_pile isSome_live?] at hlive
      obtain ⟨e, hdecoded, hthere⟩ := Outcome.getElem?_of_mapM h.entities hlive
      rw [hpile]
      exact .live hgone hdecoded hthere

/-- Of two entries on one pile the earlier one lies first. -/
theorem tally_take_lt_iff {p : Pile} {i j : Nat} {entry other : String × BatchEntry} (hi : found[i]? = some entry)
    (hj : found[j]? = some other) (hentry : entry.2.pile = p) (hother : other.2.pile = p) :
    i < j ↔ tally (found.take i) p < tally (found.take j) p := by
  constructor
  · intro hij
    exact countP_take_lt hi (by simp [hentry]) hij
  · intro hlt
    by_contra hge
    rcases Nat.eq_or_lt_of_le (Nat.le_of_not_lt hge) with rfl | hji
    · omega
    · have hgt : tally (found.take j) p < tally (found.take i) p := countP_take_lt hj (by simp [hother]) hji
      omega

/-- **Entries that are told apart are in their places.** -/
theorem Tells.places (h : Tells D classField found b) : Places D classField found b := by
  refine ⟨fun i entry => h.lies, fun p place hplace => ?_, fun p i j entry other => tally_take_lt_iff⟩
  rw [h.height_eq] at hplace
  obtain ⟨i, entry, hentry, hpile, hcount⟩ := exists_countP_take hplace
  have hpile : entry.2.pile = p := of_decide_eq_true hpile
  refine ⟨i, ⟨⟨entry, hentry, hpile⟩, hcount⟩, ?_⟩
  rintro j ⟨⟨other, hother, hsame⟩, htally⟩
  have hforth := tally_take_lt_iff hentry hother hpile hsame
  have hback := tally_take_lt_iff hother hentry hsame hpile
  have hequal : tally (found.take i) p = place := hcount
  omega

/-- The live documents are decoded exactly if something comes of all of them. -/
theorem decodes_iff : Decodes D classField found
    ↔ ∃ entities, ((found.filterMap live?).mapM fun d => D.decode d classField) = .ok entities := by
  have hlive : ∀ d, d ∈ found.filterMap live?
      ↔ ∃ id, (id, BatchEntry.document d) ∈ found ∧ Envelope.isTombstone d = false := by
    intro d
    rw [List.mem_filterMap]
    constructor
    · rintro ⟨⟨id, d' | e⟩, hentry, hd⟩
      · cases hgone : Envelope.isTombstone d' with
        | true => simp [live?, hgone] at hd
        | false =>
          obtain rfl : d' = d := by simpa [live?, hgone] using hd
          exact ⟨id, hentry, hgone⟩
      · cases hd
    · rintro ⟨id, hentry, hgone⟩
      exact ⟨(id, .document d), hentry, by simp [live?, hgone]⟩
  rw [Outcome.exists_mapM_iff]
  constructor
  · intro h d hd
    obtain ⟨id, hentry, hgone⟩ := (hlive d).1 hd
    exact h id d hentry hgone
  · intro h id d hentry hgone
    exact h d ((hlive d).2 ⟨id, hentry, hgone⟩)

/-- **Something comes of entries exactly if every live document is decoded.** -/
theorem exists_ofEntries_iff : (∃ b, ofEntries D classField found = .ok b) ↔ Decodes D classField found := by
  rw [ofEntries_eq, decodes_iff]
  constructor
  · rintro ⟨b, hb⟩
    obtain ⟨entities, hentities, -⟩ := Outcome.map_eq_ok.1 hb
    exact ⟨entities, hentities⟩
  · rintro ⟨entities, hentities⟩
    exact ⟨_, Outcome.map_eq_ok.2 ⟨entities, hentities, rfl⟩⟩

/-- **Entries fail as the first live document that is not decoded does.** -/
theorem ofEntries_eq_error {e : ClientError} :
    ofEntries D classField found = .error e ↔ FailsFirst D classField found e := by
  constructor
  · intro herror
    rcases ofEntries_spec D classField found with ⟨b, hb, -⟩ | ⟨before, d, after, e', hsplit, hbefore, hfails, he'⟩
    · rw [hb] at herror
      exact nomatch herror
    · obtain rfl : e' = e := by
        rw [he'] at herror
        exact Except.error.inj herror
      obtain ⟨first, rest, rfl, hfirst, hrest⟩ := List.filterMap_eq_append_iff.1 hsplit
      obtain ⟨skipped, ⟨id, entry⟩, later, rfl, hskipped, hlive, -⟩ := List.filterMap_eq_cons_iff.1 hrest
      cases entry with
      | error e => exact nomatch hlive
      | document d' =>
        cases hgone : Envelope.isTombstone d' with
        | true => simp [live?, hgone] at hlive
        | false =>
          obtain rfl : d' = d := by simpa [live?, hgone] using hlive
          refine ⟨first ++ skipped, id, d', later, by rw [List.append_assoc], decodes_iff.2 ?_, hgone, hfails⟩
          rwa [List.filterMap_append, hfirst, List.filterMap_eq_nil_iff.2 hskipped, List.append_nil]
  · rintro ⟨before, id, d, after, rfl, hbefore, hgone, hfails⟩
    obtain ⟨entities, hentities⟩ := decodes_iff.1 hbefore
    have hlive : live? (id, .document d) = some d := by simp [live?, hgone]
    have hlives : (before ++ (id, .document d) :: after).filterMap live?
        = before.filterMap live? ++ d :: after.filterMap live? := by
      rw [List.filterMap_append, List.filterMap_cons_some hlive]
    rw [ofEntries_eq, hlives, Outcome.mapM_append_cons, hentities, Outcome.ok_bind, hfails]
    rfl

/-- There are as many entries as the items of a reply have. -/
theorem length_entries (items : List BatchItem) :
    (entries items).length = (items.map fun item => item.entries.length).sum := by
  simp [entries, List.length_flatMap]

end BatchRead

namespace Client

open BatchRead

variable {ε : Type} {r : Request} {reply : Reply} {items : List BatchItem}

/-- **A batch of reads sorts the entries of its reply.** Of a reply that can be read something comes exactly if every
live document is decoded; then every entry is in its place on its pile and nothing else is, so the heights of the three
piles add up to the number of entries. Otherwise the first live document that is not decoded is the failure. -/
theorem readBatchIn_sorted (c : Client) (D : Dispatch ε) (db : DatabaseName) (ids : List DocId) (routes : Routes)
    (answer : Answer) (hsent : (c.readBatchIn db ids D routes).1.request? = some r)
    (hreply : answer.reply? = some reply) (hstatus : reply.status = 200)
    (hread : Reader.ofText BatchItem.listReader reply.text.toList = .ok items) :
    ((∃ b, (c.readBatchIn db ids D routes).1.result answer = .ok b) ↔ Decodes D c.settings.classField (entries items))
    ∧ (∀ b, (c.readBatchIn db ids D routes).1.result answer = .ok b →
        Places D c.settings.classField (entries items) b
          ∧ b.entities.length + b.errors.length + b.deleted.length
            = (items.map fun item => item.entries.length).sum)
    ∧ ∀ e, (c.readBatchIn db ids D routes).1.result answer = .error e
        ↔ FailsFirst D c.settings.classField (entries items) e := by
  have hresult : (c.readBatchIn db ids D routes).1.result answer
      = ofEntries D c.settings.classField (entries items) := by
    rw [((takes_readBatchIn D db ids).result_of_sent hsent hreply).2, batchRead, if_pos hstatus, hread]
    rfl
  rw [hresult]
  refine ⟨exists_ofEntries_iff, fun b hb => ?_, fun e => ofEntries_eq_error⟩
  have htells : Tells D c.settings.classField (entries items) b := ofEntries_eq_ok.1 hb
  exact ⟨htells.places, by rw [htells.counted, length_entries]⟩

/-- Two items: a deletion of a class that nobody knows next to an error, and a live document next to a deletion of no
class. -/
def sampleMixed : List BatchItem :=
  [⟨"a", [.document [("_deleted", .bool true), ("class__", .str "?")], .error ⟨"a", none, "e", none⟩]⟩,
    ⟨"b", [.document [("_id", .str "b"), ("class__", .str "Test"), ("label", .str "x")],
      .document [("_deleted", .bool true)]]⟩]

/-- The reply of a server with these items. -/
def sampleMixedFound : Reply where
  status := 200
  text := "\x7b\"results\":[\x7b\"id\":\"a\",\"docs\":["
    ++ "\x7b\"ok\":\x7b\"_deleted\":true,\"class__\":\"?\"\x7d\x7d,"
    ++ "\x7b\"error\":\x7b\"id\":\"a\",\"error\":\"e\"\x7d\x7d]\x7d,\x7b\"id\":\"b\",\"docs\":["
    ++ "\x7b\"ok\":\x7b\"_id\":\"b\",\"class__\":\"Test\",\"label\":\"x\"\x7d\x7d,"
    ++ "\x7b\"ok\":\x7b\"_deleted\":true\x7d\x7d]\x7d]\x7d"

/-- The entries of both items are all in their places. -/
theorem readBatchIn_sorted_sample : ∃ b,
    (sample.readBatchIn ⟨"db"⟩ [⟨"a"⟩, ⟨"b"⟩] sampleDispatch .sample).1.result sampleMixedFound.answer = .ok b
      ∧ Places sampleDispatch "class__" (entries sampleMixed) b
      ∧ b.entities.length + b.errors.length + b.deleted.length = 4 := by
  obtain ⟨r, hr⟩ : ∃ r, (sample.readBatchIn ⟨"db"⟩ [⟨"a"⟩, ⟨"b"⟩] sampleDispatch .sample).1.request? = some r :=
    Option.isSome_iff_exists.1 (by decide +kernel)
  have hread : Reader.ofText BatchItem.listReader sampleMixedFound.text.toList = .ok sampleMixed := by decide +kernel
  obtain ⟨hsome, hplaces, -⟩ := readBatchIn_sorted sample sampleDispatch ⟨"db"⟩ [⟨"a"⟩, ⟨"b"⟩] .sample
    sampleMixedFound.answer hr sampleMixedFound.reply?_answer rfl hread
  have hdecodes : Decodes sampleDispatch "class__" (entries sampleMixed) := exists_ofEntries_iff.1 ⟨_, rfl⟩
  obtain ⟨b, hb⟩ := hsome.2 hdecodes
  exact ⟨b, hb, hplaces b hb⟩

end Client
end DocClient
