/-
# Options are told by the query they are sent in

An option is sent as one pair of the query, under a key of its own, or not at all. An `OptionSheet` has all keys of some
options, with what is sent for each:

| option | what is sent |
| --- | --- |
| a switch | `true`, if it is on |
| a number | its decimal text, if it is set |
| a text, a revision, a position | itself, if it is set |
| revisions | their JSON array, if there are any |
| a write that may be put off | `ok`, if it may |
| a truth value | `true` or `false`, if it is set |

A sheet is told by its pairs, as no two have the same key (`OptionSheet.eq_of_pairs_eq`); pairs are told by the text of
the query (`Percent.query_injective`); and each option is told by what is sent for it. So are the options of a read
(`ReadOptions.query_inj`), of a write (`WriteOptions.query_inj`) and, with the body, of a feed, where one thing is asked
for in two ways: documents by name, with the filter for that or without any (`FeedRequest.AsksAlike`).
-/

import DocClient.Feed.Request
import DocClient.Proofs.Http.Query
import DocClient.Proofs.Json.Strings
import DocClient.Proofs.Store.Records
import DocClient.Store.Write
import Mathlib

namespace DocClient

/-- **Pairs are told by the text of their query.** -/
theorem Percent.query_injective : Function.Injective Percent.query := by
  intro pairs pairs' h
  have hpairs := congrArg Percent.queryDecode h
  rw [Percent.queryDecode_query, Percent.queryDecode_query] at hpairs
  refine List.map_injective_iff.2 (fun p p' hp => ?_) hpairs
  obtain ⟨hkey, htext⟩ := Prod.mk.inj hp
  exact Prod.ext (String.toList_inj.1 hkey) (String.toList_inj.1 htext)

/-- The keys of some options, with what is sent for each. -/
abbrev OptionSheet := List (String × Option String)

namespace OptionSheet

/-- What is sent for a switch. -/
def switch (on : Bool) : Option String := if on then some "true" else none

/-- What is sent for revisions. -/
def revisions (revs : List Revision) : Option String :=
  if revs.isEmpty then none else some (Json.ofRevisions revs).compact

/-- The pairs that are sent. -/
def pairs (sheet : OptionSheet) : List (String × String) := sheet.filterMap fun entry => entry.2.map (entry.1, ·)

/-- What is sent under a key. -/
def sent? (sheet : OptionSheet) (key : String) : Option String := (sheet.lookup key).join

variable {sheet sheet' : OptionSheet} {key text : String}

@[simp] theorem pairs_nil : pairs [] = [] := rfl

@[simp] theorem pairs_append : (sheet ++ sheet').pairs = sheet.pairs ++ sheet'.pairs := List.filterMap_append

@[simp] theorem pairs_cons {sent : Option String} :
    pairs ((key, sent) :: sheet) = (sent.map (key, ·)).toList ++ sheet.pairs := by
  cases sent <;> rfl

/-- The pairs of switches are those of the switches that are on. -/
theorem pairs_switches (switches : List (String × Bool)) :
    pairs (switches.map fun s => (s.1, switch s.2)) = (switches.filter Prod.snd).map fun s => (s.1, "true") := by
  induction switches with
  | nil => rfl
  | cons s rest ih =>
    obtain ⟨name, on⟩ := s
    cases on with
    | false => exact ih
    | true => exact congrArg (List.cons (name, "true")) ih

/-- The pairs of numbers are those of the numbers that are set. -/
theorem pairs_numbers (numbers : List (String × Option Nat)) :
    pairs (numbers.map fun n => (n.1, n.2.map toString))
      = numbers.filterMap fun n => n.2.map fun value => (n.1, toString value) := by
  simp only [pairs, List.filterMap_map, Function.comp_def, Option.map_map]

theorem mem_pairs : (key, text) ∈ sheet.pairs ↔ (key, some text) ∈ sheet := by
  simp only [pairs, List.mem_filterMap, Option.map_eq_some_iff, Prod.mk.injEq]
  constructor
  · rintro ⟨⟨_, _⟩, hmem, _, rfl, rfl, rfl⟩
    exact hmem
  · exact fun hmem => ⟨_, hmem, text, rfl, rfl, rfl⟩

/-- What is sent has no other keys. -/
theorem keys_sublist : (sheet.pairs.map Prod.fst).Sublist (sheet.map Prod.fst) := by
  induction sheet with
  | nil => exact .slnil
  | cons entry rest ih =>
    obtain ⟨key, sent⟩ := entry
    rw [pairs_cons]
    cases sent with
    | none => exact ih.cons key
    | some text => exact ih.cons_cons key

/-- **A sheet with distinct keys is told by what is sent.** -/
theorem eq_of_pairs_eq (hkeys : sheet.map Prod.fst = sheet'.map Prod.fst) (hdistinct : (sheet.map Prod.fst).Nodup)
    (h : sheet.pairs = sheet'.pairs) : sheet = sheet' := by
  induction sheet generalizing sheet' with
  | nil => exact (List.map_eq_nil_iff.1 hkeys.symm).symm
  | cons entry rest ih =>
    match sheet' with
    | [] => exact nomatch hkeys
    | (key', sent') :: rest' =>
      obtain ⟨key, sent⟩ := entry
      obtain ⟨hkey, hrest⟩ := List.cons.inj hkeys
      obtain rfl : key = key' := hkey
      obtain ⟨hnew, hlater⟩ := List.nodup_cons.1 hdistinct
      have hgone : ∀ text, (key, text) ∉ pairs rest := fun text hmem =>
        hnew (keys_sublist.subset (List.mem_map_of_mem hmem))
      have hgone' : ∀ text, (key, text) ∉ pairs rest' := fun text hmem =>
        hnew (hrest ▸ keys_sublist.subset (List.mem_map_of_mem hmem))
      rw [pairs_cons, pairs_cons] at h
      -- what is sent for the first key comes first, and nothing after it has the key
      match sent, sent' with
      | none, none => rw [ih hrest hlater h]
      | some text, some text' =>
        obtain ⟨hfirst, hmore⟩ := List.cons.inj h
        obtain ⟨-, rfl⟩ := Prod.mk.inj hfirst
        rw [ih hrest hlater hmore]
      | some text, none =>
        have hmore : (key, text) :: pairs rest = pairs rest' := h
        exact absurd (hmore ▸ List.mem_cons_self) (hgone' text)
      | none, some text' =>
        have hmore : pairs rest = (key, text') :: pairs rest' := h
        exact absurd (hmore ▸ List.mem_cons_self) (hgone text')

/-- A sheet with distinct keys is told by the text of its query. -/
theorem eq_of_query_eq (hkeys : sheet.map Prod.fst = sheet'.map Prod.fst) (hdistinct : (sheet.map Prod.fst).Nodup)
    (h : Percent.query sheet.pairs = Percent.query sheet'.pairs) : sheet = sheet' :=
  eq_of_pairs_eq hkeys hdistinct (Percent.query_injective h)

theorem switch_injective : Function.Injective switch := by
  intro on on' h
  cases on <;> cases on' <;> first | rfl | exact nomatch h

/-- **Revisions are read back off their text.** -/
theorem ofText_ofRevisions (revs : List Revision) :
    Reader.ofText (Reader.list Revision.reader) (Json.ofRevisions revs).compact.toList = .ok revs := by
  rw [Json.compact, String.toList_ofList]
  exact Reader.ofText_strings (fun _ d => by cases d <;> rfl) (Revision.list_ofRevisions revs)

theorem revisions_injective : Function.Injective revisions := by
  intro revs revs' h
  rw [revisions, revisions] at h
  split_ifs at h with hnone hnone'
  · rw [List.isEmpty_iff.1 hnone, List.isEmpty_iff.1 hnone']
  · have hread := ofText_ofRevisions revs
    rw [Option.some.inj h, ofText_ofRevisions] at hread
    exact (Except.ok.inj hread).symm

theorem revision_injective : Function.Injective (Option.map Revision.text) :=
  Option.map_injective fun _ _ => congrArg Revision.mk

theorem position_injective : Function.Injective (Option.map Sequence.text) :=
  Option.map_injective fun _ _ => congrArg Sequence.mk

theorem number_injective : Function.Injective (toString : Nat → String) := fun _ _ => Nat.repr_inj.1

/-- **A sheet says what is sent** as some pairs: no key is given twice, each pair is an option that is set, with its
text, and that is what is read off the query, on its own and behind the target of a request. -/
structure Says (sheet : OptionSheet) (sent : List (String × String)) : Prop where
  unique : (sent.map Prod.fst).Nodup
  exact : ∀ key text, (key, text) ∈ sent ↔ (key, some text) ∈ sheet
  decoded : Percent.queryDecode (Percent.query sent) = sent.map fun p => (p.1.toList, p.2.toList)
  received : ∀ (c : Client) method path body r, c.request? method path (some sent) body = some r →
    r.pairs = c.ownPairs path ++ sent

/-- A sheet with distinct keys says what its pairs are sent as. -/
theorem says_pairs (hdistinct : (sheet.map Prod.fst).Nodup) : sheet.Says sheet.pairs where
  unique := hdistinct.sublist keys_sublist
  exact _ _ := mem_pairs
  decoded := Percent.queryDecode_query _
  received _ _ _ _ _ h := (Client.request?_eq_some h).2.2.2

end OptionSheet

open OptionSheet (switch switch_injective revisions_injective revision_injective position_injective number_injective)

namespace ReadOptions

variable {o o' : ReadOptions}

/-- The options of a read with what is sent for them. -/
def sheet (o : ReadOptions) : OptionSheet :=
  o.switches.map (fun s => (s.1, switch s.2))
    ++ [("atts_since", OptionSheet.revisions o.attsSince), ("open_revs", OptionSheet.revisions o.openRevs),
      ("rev", o.rev.map Revision.text)]

theorem query_eq : o.query = o.sheet.pairs := by
  have hlist : ∀ name revs, revisionList name revs = ((OptionSheet.revisions revs).map (name, ·)).toList := by
    intro name revs
    rw [revisionList, OptionSheet.revisions]
    split <;> rfl
  rw [query, sheet, OptionSheet.pairs_append, OptionSheet.pairs_switches]
  simp [hlist, Function.comp_def]

theorem nodup_sheet (o : ReadOptions) : (o.sheet.map Prod.fst).Nodup := by
  simp [sheet, switches]

theorem sheet_injective : Function.Injective sheet := by
  intro o o' h
  -- under each key the same is sent, which tells the option
  have hsame : ∀ key, o.sheet.sent? key = o'.sheet.sent? key := fun key => by rw [h]
  cases o
  cases o'
  rw [ReadOptions.mk.injEq]
  exact ⟨switch_injective (hsame "attachments"), switch_injective (hsame "att_encoding_info"),
    revisions_injective (hsame "atts_since"), switch_injective (hsame "conflicts"),
    switch_injective (hsame "deleted_conflicts"), switch_injective (hsame "latest"),
    switch_injective (hsame "local_seq"), switch_injective (hsame "meta"), revisions_injective (hsame "open_revs"),
    revision_injective (hsame "rev"), switch_injective (hsame "revs"), switch_injective (hsame "revs_info")⟩

/-- **Options of reads are told by the text of their query.** -/
theorem query_inj : Percent.query o.query = Percent.query o'.query ↔ o = o' := by
  rw [query_eq, query_eq]
  exact ⟨fun h => sheet_injective (OptionSheet.eq_of_query_eq rfl o.nodup_sheet h), fun h => h ▸ rfl⟩

/-- A revision with a quote, a bracket and an `&` is sent with all of them escaped. -/
example : String.ofList (Percent.query ({ openRevs := [⟨"1-\"]&"⟩] } : ReadOptions).query)
    = "open_revs=%5B%221-%5C%22%5D%26%22%5D" := by
  decide +kernel

end ReadOptions

namespace WriteOptions

variable {o o' : WriteOptions}

/-- The options of a write with what is sent for them. -/
def sheet (o : WriteOptions) : OptionSheet :=
  [("rev", o.rev.map Revision.text), ("batch", if o.batch then some "ok" else none),
    ("new_edits", o.newEdits.map fun on => if on then "true" else "false")]

theorem query_eq : o.query = o.sheet.pairs := by
  obtain ⟨rev, batch, newEdits⟩ := o
  cases rev <;> cases batch <;> cases newEdits <;> rfl

theorem nodup_sheet (o : WriteOptions) : (o.sheet.map Prod.fst).Nodup := by
  simp [sheet]

theorem sheet_injective : Function.Injective sheet := by
  intro o o' h
  have hsame : ∀ key, o.sheet.sent? key = o'.sheet.sent? key := fun key => by rw [h]
  have hbatch : Function.Injective fun on : Bool => if on then some "ok" else none := by decide
  have hflag : Function.Injective fun on : Bool => if on then "true" else "false" := by decide
  cases o
  cases o'
  rw [WriteOptions.mk.injEq]
  exact ⟨revision_injective (hsame "rev"), hbatch (hsame "batch"),
    Option.map_injective hflag (hsame "new_edits")⟩

/-- **Options of writes are told by the text of their query.** -/
theorem query_inj : Percent.query o.query = Percent.query o'.query ↔ o = o' := by
  rw [query_eq, query_eq]
  exact ⟨fun h => sheet_injective (OptionSheet.eq_of_query_eq rfl o.nodup_sheet h), fun h => h ▸ rfl⟩

end WriteOptions

namespace FeedRequest

variable {r r' : FeedRequest} {p p' : Sequence}

/-- The options of a feed with what is sent for them by a connection that starts at a position. -/
def sheet (r : FeedRequest) (p : Sequence) : OptionSheet :=
  [("feed", some "continuous"), ("heartbeat", some (toString r.heartbeat)), ("since", some p.text),
      ("style", some r.style.text)]
    ++ r.switches.map (fun s => (s.1, switch s.2))
    ++ [("filter", r.effectiveFilter), ("last-event-id", r.lastEventId.map Sequence.text)]
    ++ r.numbers.map (fun n => (n.1, n.2.map toString))
    ++ [("view", r.view)]

theorem query_eq : r.query p = (r.sheet p).pairs := by
  rw [query, sheet, OptionSheet.pairs_append, OptionSheet.pairs_append, OptionSheet.pairs_append,
    OptionSheet.pairs_append, OptionSheet.pairs_switches, OptionSheet.pairs_numbers]
  simp [Function.comp_def]

theorem nodup_sheet (r : FeedRequest) (p : Sequence) : ((r.sheet p).map Prod.fst).Nodup := by
  simp [sheet, switches, numbers]

/-- The wanted documents are told by the body. -/
theorem docIds_of_body (h : r.body = r'.body) : r.docIds = r'.docIds := by
  have hmap : Function.Injective (List.map DocId.text) :=
    List.map_injective_iff.2 fun _ _ => congrArg DocId.mk
  have hstr : Function.Injective (List.map Json.str) := List.map_injective_iff.2 fun _ _ => Json.str.inj
  rw [body, body] at h
  split_ifs at h with hnone hnone'
  · rw [List.isEmpty_iff.1 hnone, List.isEmpty_iff.1 hnone']
  · exact nomatch h
  · exact nomatch h
  · have hmembers := Json.obj.inj h
    have hvalue : Json.ofStrings (r.docIds.map DocId.text) = Json.ofStrings (r'.docIds.map DocId.text) :=
      (Prod.mk.inj (List.cons.inj hmembers).1).2
    exact hmap (hstr (Json.arr.inj hvalue))

/-- **Two requests ask alike** if they differ only in where they start, and in that one has names of documents and no
filter, and the other one the filter for that. -/
structure AsksAlike (r r' : FeedRequest) : Prop where
  same : { r with since := r'.since, filter := r'.filter } = r'
  filter : r.filter = r'.filter
    ∨ r.docIds ≠ [] ∧ (r.filter = none ∧ r'.filter = some "_doc_ids" ∨ r.filter = some "_doc_ids" ∧ r'.filter = none)

/-- The filter that is sent is the same. -/
theorem effectiveFilter_inj (h : r.docIds = r'.docIds) : r.effectiveFilter = r'.effectiveFilter
    ↔ r.filter = r'.filter ∨ r.docIds ≠ []
      ∧ (r.filter = none ∧ r'.filter = some "_doc_ids" ∨ r.filter = some "_doc_ids" ∧ r'.filter = none) := by
  rw [effectiveFilter, effectiveFilter, ← h]
  cases r.filter <;> cases r'.filter <;> cases r.docIds <;> simp [eq_comm]

/-- **Requests for changes are told by the text of their query and their body,** so far as they do not ask alike. -/
theorem query_inj : Percent.query (r.query p) = Percent.query (r'.query p') ∧ r.body = r'.body
    ↔ p = p' ∧ r.AsksAlike r' := by
  constructor
  · rintro ⟨hquery, hbody⟩
    rw [query_eq, query_eq] at hquery
    have hsheet : r.sheet p = r'.sheet p' := OptionSheet.eq_of_query_eq rfl (r.nodup_sheet p) hquery
    have hsame : ∀ key, (r.sheet p).sent? key = (r'.sheet p').sent? key := fun key => by rw [hsheet]
    have hids := docIds_of_body hbody
    have hnumber := Option.map_injective number_injective
    have hstyle : Function.Injective LeafStyle.text := by
      intro style style' h
      cases style <;> cases style' <;> first | rfl | exact absurd h (by decide)
    have hsince : p = p' := congrArg Sequence.mk (Option.some.inj (hsame "since"))
    refine ⟨hsince, ?_, (effectiveFilter_inj hids).1 (hsame "filter")⟩
    cases r
    cases r'
    rw [FeedRequest.mk.injEq]
    exact ⟨hids, switch_injective (hsame "conflicts"), switch_injective (hsame "descending"), rfl,
      number_injective (Option.some.inj (hsame "heartbeat")), switch_injective (hsame "include_docs"),
      switch_injective (hsame "attachments"), switch_injective (hsame "att_encoding_info"),
      position_injective (hsame "last-event-id"), hnumber (hsame "limit"), rfl,
      hstyle (Option.some.inj (hsame "style")), hnumber (hsame "timeout"), hsame "view", hnumber (hsame "seq_interval")⟩
  · rintro ⟨rfl, hsame, hfilter⟩
    have hids : r.docIds = r'.docIds := by rw [← hsame]
    have hsent := (effectiveFilter_inj hids).2 hfilter
    have hquery : r.query p = r'.query p := by
      rw [query, query, hsent, ← hsame]
      rfl
    refine ⟨congrArg Percent.query hquery, ?_⟩
    rw [body, body, hids]

/-- Names of documents are asked for alike with the filter for them and without any. -/
example : ({ docIds := [⟨"a"⟩] } : FeedRequest).query .zero
    = ({ docIds := [⟨"a"⟩], filter := some "_doc_ids" } : FeedRequest).query .zero := by
  decide

end FeedRequest

/-- **Options are sent faithfully.** Options of reads with the same query are the same, and so are options of writes.
Requests for changes with the same query and the same body start at the same position and ask alike. In no query is a
key given twice, and each pair is read off it as the text of its option, whatever characters that has; the text for
revisions is read back as the revisions. -/
theorem options_told_apart :
    (∀ o o' : ReadOptions, Percent.query o.query = Percent.query o'.query ↔ o = o')
    ∧ (∀ o o' : WriteOptions, Percent.query o.query = Percent.query o'.query ↔ o = o')
    ∧ (∀ (r r' : FeedRequest) (p p' : Sequence),
      Percent.query (r.query p) = Percent.query (r'.query p') ∧ r.body = r'.body ↔ p = p' ∧ r.AsksAlike r')
    ∧ (∀ o : ReadOptions, o.sheet.Says o.query)
    ∧ (∀ o : WriteOptions, o.sheet.Says o.query)
    ∧ (∀ (r : FeedRequest) (p : Sequence), (r.sheet p).Says (r.query p))
    ∧ ∀ revs : List Revision,
      Reader.ofText (Reader.list Revision.reader) (Json.ofRevisions revs).compact.toList = .ok revs := by
  refine ⟨fun _ _ => ReadOptions.query_inj, fun _ _ => WriteOptions.query_inj, fun _ _ _ _ => FeedRequest.query_inj,
    fun o => ?_, fun o => ?_, fun r p => ?_, OptionSheet.ofText_ofRevisions⟩
  · rw [ReadOptions.query_eq]
    exact OptionSheet.says_pairs o.nodup_sheet
  · rw [WriteOptions.query_eq]
    exact OptionSheet.says_pairs o.nodup_sheet
  · rw [FeedRequest.query_eq]
    exact OptionSheet.says_pairs (r.nodup_sheet p)

end DocClient
