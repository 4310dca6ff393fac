/-
# Every document of a batch has its outcome

A batch of writes is answered by a list of outcomes, and an outcome belongs to the document in its own place: the place
counts through the upserts and then through the deletions. Names decide nothing, since a name may stand in a batch more
than once; they are compared only to refuse a list that does not line up.

| what is made of a batch | of which places |
| --- | --- |
| the entities at their new revisions | the upserts whose outcome is good |
| the deletions that were made | the deletions whose outcome is good |
| the failures | all whose outcome is not good |

So the three together account for every document of the batch (`Accounts.counted`).
-/

import DocClient.Proofs.Client
import DocClient.Proofs.Store.Server
import DocClient.Store.Batch

namespace DocClient

/-- A list taken along with another is the list with the entries of the other by place. -/
theorem filterMap_zip_drop {β γ δ : Type} (g : β → γ → Option δ) (xs : List β) (ys : List γ) (start : Nat) :
    (xs.zip (ys.drop start)).filterMap (fun p => g p.1 p.2)
      = (xs.zipIdx start).filterMap fun p => (ys[p.2]?).bind (g p.1) := by
  induction xs generalizing start with
  | nil => rfl
  | cons x rest ih =>
    have hrest := ih (start + 1)
    rw [List.zipIdx_cons, List.filterMap_cons, ← hrest]
    by_cases h : start < ys.length
    · rw [List.drop_eq_getElem_cons h, List.zip_cons_cons, List.filterMap_cons, List.getElem?_eq_getElem h]
      rfl
    · have hstart : ys.drop start = [] := List.drop_eq_nil_of_le (by omega)
      have hnext : ys.drop (start + 1) = [] := List.drop_eq_nil_of_le (by omega)
      rw [hstart, hnext, List.zip_nil_right, List.getElem?_eq_none (by omega)]
      simp

namespace EntityType

variable {α : Type}

/-- An entity is another with nothing but the revision replaced. -/
structure AtRevision (T : EntityType α) (e : α) (rev : Revision) (e' : α) : Prop where
  id_eq : T.id e' = T.id e
  revision_eq : T.revision e' = some rev
  others : ∀ name, name ≠ "revision" → (T.members e').get? name = (T.members e).get? name

/-- An entity of a faithful type at another revision has nothing but the revision replaced. -/
theorem Faithful.atRevision {T : EntityType α} {fields : List String} {Valid : α → Prop}
    (h : T.Faithful fields Valid) {e : α} (he : Valid e) (rev : Revision) : T.AtRevision e rev (T.withRevision e rev) :=
  ⟨h.id_withRevision e rev, h.revision_withRevision e rev, h.get?_withRevision e he rev⟩

end EntityType

namespace BatchWritten

variable {α β γ : Type}

/-- What is made of an entry of a batch by its place, if the outcome in that place is good. -/
def ofGood (b : BatchWritten α) (make : β → BulkOutcome → Option γ) (entry : β × Nat) : Option γ :=
  (b.outcomes[entry.2]?).bind fun o => if o.isOk then make entry.1 o else none

/-- A good outcome of an upsert that says no revision. -/
def Unrevised (o : BulkOutcome) : Bool := o.isOk && o.rev.isNone

/-- Entities get their new revisions up to the first whose good outcome says none. -/
theorem renewed_eq (T : EntityType α) (pairs : List (α × BulkOutcome)) :
    renewed T pairs = match pairs.find? fun p => Unrevised p.2 with
      | some p => .error (.responseRevisionMissing p.2.id)
      | none => .ok (pairs.filterMap fun p => if p.2.isOk then p.2.rev.map (T.withRevision p.1) else none) := by
  induction pairs with
  | nil => rfl
  | cons p rest ih =>
    obtain ⟨e, o⟩ := p
    rw [renewed]
    cases hok : o.isOk with
    | false => simp [ih, Unrevised, hok]
    | true =>
      cases hrev : o.rev with
      | none => simp [Unrevised, hok, hrev]
      | some rev =>
        simp only [if_true, ih, Unrevised, hok, hrev, Option.isNone_some, Bool.and_false, List.find?_cons,
          List.filterMap_cons, Option.map_some]
        cases rest.find? _ <;> rfl

/-- Of the entities that get new revisions there are as many as good outcomes. -/
theorem length_renewed {T : EntityType α} {pairs : List (α × BulkOutcome)} {es : List α}
    (h : renewed T pairs = .ok es) : es.length = (pairs.filter fun p => p.2.isOk).length := by
  induction pairs generalizing es with
  | nil =>
    obtain rfl := Except.ok.inj h
    rfl
  | cons p rest ih =>
    obtain ⟨e, o⟩ := p
    rw [renewed] at h
    cases hok : o.isOk with
    | false =>
      simp only [hok, Bool.false_eq_true, if_false] at h
      simp [hok, ih h]
    | true =>
      cases hrev : o.rev with
      | none => simp [hok, hrev] at h
      | some rev =>
        simp only [hok, hrev, if_true] at h
        obtain ⟨es', hes', rfl⟩ := Outcome.map_eq_ok.1 h
        simp [hok, ih hes']

variable (b : BatchWritten α)

/-- The upserts are taken along with the first outcomes. -/
theorem zip_upsertOutcomes : b.upserts.zip b.upsertOutcomes = b.upserts.zip (b.outcomes.drop 0) := by
  rw [upsertOutcomes, List.drop_zero, List.zip_eq_zip_take_min, List.take_take, List.length_take]
  conv_rhs => rw [List.zip_eq_zip_take_min]
  simp

/-- The outcomes that upserts are taken along with are the outcomes of the upserts. -/
theorem map_snd_zip_upserts : (b.upserts.zip b.upsertOutcomes).map Prod.snd = b.upsertOutcomes := by
  refine List.map_snd_zip ?_
  rw [upsertOutcomes, List.length_take]
  exact Nat.min_le_left ..

/-- **The entities at their new revisions** are those of the upserts whose own outcome is good, unless something failed
that must not, or a good outcome says no revision. -/
theorem updated_eq (T : EntityType α) {strict : Bool} (h : strict = true → ∀ o ∈ b.outcomes, o.isOk = true) :
    b.updated T strict = match b.upsertOutcomes.find? Unrevised with
      | some o => .error (.responseRevisionMissing o.id)
      | none => .ok (b.upserts.zipIdx.filterMap (b.ofGood fun e o => o.rev.map (T.withRevision e))) := by
  have hstrict : (strict && !b.isOk) = false := by
    cases strict with
    | false => rfl
    | true => simpa [isOk, failed] using h rfl
  have hfind : b.upsertOutcomes.find? Unrevised
      = ((b.upserts.zip b.upsertOutcomes).find? fun p => Unrevised p.2).map Prod.snd := by
    conv_lhs => rw [← b.map_snd_zip_upserts, List.find?_map]
    rfl
  have hgood : (b.upserts.zip b.upsertOutcomes).filterMap
        (fun p => if p.2.isOk then p.2.rev.map (T.withRevision p.1) else none)
      = b.upserts.zipIdx.filterMap (b.ofGood fun e o => o.rev.map (T.withRevision e)) := by
    rw [b.zip_upsertOutcomes]
    exact filterMap_zip_drop (fun e o => if o.isOk then o.rev.map (T.withRevision e) else none) b.upserts b.outcomes 0
  rw [updated, hstrict, if_neg Bool.false_ne_true, renewed_eq, hfind, hgood]
  cases (b.upserts.zip b.upsertOutcomes).find? _ <;> rfl

/-- Where all must be written, what was not is the failure. -/
theorem updated_strict (T : EntityType α) (h : ∃ o ∈ b.outcomes, o.isOk = false) :
    b.updated T true = .error (.bulkFailed (b.outcomes.filter fun o => !o.isOk)) := by
  obtain ⟨o, ho, hfailed⟩ := h
  have hnot : b.isOk = false := by
    simp only [isOk, failed, List.isEmpty_eq_false_iff, ne_eq, List.filter_eq_nil_iff]
    exact fun hall => hall o ho (by simp [hfailed])
  rw [updated, hnot]
  rfl

/-- **The deletions that were made** are those whose own outcome is good. -/
theorem deleted_eq : b.deleted = (b.deletions.zipIdx b.upserts.length).filterMap (b.ofGood fun d _ => some d) := by
  have hfilter (pairs : List (Deletion × BulkOutcome)) : (pairs.filter fun p => p.2.isOk).map Prod.fst
      = pairs.filterMap fun p => if p.2.isOk then some p.1 else none := by
    induction pairs with
    | nil => rfl
    | cons p rest ih => cases hok : p.2.isOk <;> simp [hok, ih]
  rw [deleted, hfilter]
  exact filterMap_zip_drop (fun d o => if o.isOk then some d else none) b.deletions b.outcomes b.upserts.length

/-- Entries with a good outcome are as many as good outcomes. -/
theorem length_filter_zip {entries : List β} {os : List BulkOutcome} (h : os.length ≤ entries.length) :
    ((entries.zip os).filter fun p => p.2.isOk).length = (os.filter BulkOutcome.isOk).length := by
  conv_rhs => rw [← List.map_snd_zip h, List.filter_map, List.length_map]
  rfl

/-- A batch with an outcome for each document accounts for each. -/
theorem counted (T : EntityType α) (hlength : b.outcomes.length = b.upserts.length + b.deletions.length) {es : List α}
    (h : b.updated T false = .ok es) :
    es.length + (b.upsertOutcomes.filter fun o => !o.isOk).length = b.upserts.length
      ∧ b.deleted.length + (b.deletionOutcomes.filter fun o => !o.isOk).length = b.deletions.length
      ∧ es.length + b.deleted.length + b.failed.length = b.upserts.length + b.deletions.length := by
  have htake : b.upsertOutcomes.length = b.upserts.length := by
    rw [upsertOutcomes, List.length_take]
    omega
  have hdrop : b.deletionOutcomes.length = b.deletions.length := by
    rw [deletionOutcomes, List.length_drop]
    omega
  have hupserts : es.length = (b.upsertOutcomes.filter BulkOutcome.isOk).length := by
    rw [length_renewed h, length_filter_zip (Nat.le_of_eq htake)]
  have hdeletions : b.deleted.length = (b.deletionOutcomes.filter BulkOutcome.isOk).length := by
    rw [deleted, List.length_map, length_filter_zip (Nat.le_of_eq hdrop)]
  have hfailed : b.failed.length = (b.upsertOutcomes.filter fun o => !o.isOk).length
      + (b.deletionOutcomes.filter fun o => !o.isOk).length := by
    rw [← List.length_append, ← List.filter_append, upsertOutcomes, deletionOutcomes, List.take_append_drop, failed]
  have hsplit (os : List BulkOutcome) := List.length_eq_length_filter_add (l := os) BulkOutcome.isOk
  have hu := hsplit b.upsertOutcomes
  have hd := hsplit b.deletionOutcomes
  omega

end BatchWritten

/-- The outcomes line up with the documents, or there is a first that does not. -/
theorem Misalignment.firstStray?_spec (start : Nat) (os : List BulkOutcome) (ids : List DocId)
    (hlen : os.length = ids.length) :
    (os.map BulkOutcome.id = ids.map DocId.text ∧ firstStray? start (os.zip ids) = none)
      ∨ ∃ i o id, os[i]? = some o ∧ ids[i]? = some id ∧ o.id ≠ id.text
        ∧ (os.take i).map BulkOutcome.id = (ids.take i).map DocId.text
        ∧ firstStray? start (os.zip ids) = some (.stray (start + i) o.id id.text) := by
  induction os generalizing ids start with
  | nil =>
    obtain rfl := List.length_eq_zero_iff.1 hlen.symm
    exact .inl ⟨rfl, rfl⟩
  | cons o rest ih =>
    cases ids with
    | nil => exact absurd hlen (Nat.succ_ne_zero _)
    | cons id ids =>
      rw [List.zip_cons_cons, firstStray?]
      by_cases heq : o.id = id.text
      · rw [if_pos heq]
        rcases ih (start + 1) ids (Nat.succ.inj hlen) with ⟨hall, hnone⟩ | ⟨i, o', id', ho, hid, hne, hbefore, hstray⟩
        · exact .inl ⟨by rw [List.map_cons, List.map_cons, heq, hall], hnone⟩
        · refine .inr ⟨i + 1, o', id', ho, hid, hne, ?_, ?_⟩
          · rw [List.take_succ_cons, List.take_succ_cons, List.map_cons, List.map_cons, heq, hbefore]
          · rw [hstray, Nat.add_assoc, Nat.add_comm 1 i]
      · rw [if_neg heq]
        exact .inr ⟨0, o, id, rfl, rfl, heq, rfl, rfl⟩

namespace Client

variable {α : Type} (c : Client) (T : EntityType α) (db : DatabaseName) (upserts : List α) (deletions : List Deletion)
  (routes : Routes)

/-- What the call for a batch may be: a failure, nothing where the batch is empty, or a request whose reply is taken as
what becomes of the batch. -/
inductive BatchCall : Call (BatchWritten α) → Prop where
  | failed (e : ClientError) : BatchCall (.done (.error e))
  | empty (hupserts : upserts = []) (hdeletions : deletions = []) : BatchCall (.done (.ok ⟨[], upserts, deletions⟩))
  | sent (request : Request) : BatchCall (.send request (batchWritten T upserts deletions))

theorem batchCall_writeBatchIn : BatchCall T upserts deletions (c.writeBatchIn T db upserts deletions routes).1 := by
  refine Plan.of_makes .failed (Prepared.makes_bind fun _ => Prepared.makes_bind fun _ => ?_) routes
  split
  case isTrue h =>
    obtain ⟨hupserts, hdeletions⟩ := Bool.and_eq_true_iff.1 h
    exact Prepared.makes_pure (.empty (List.isEmpty_iff.1 hupserts) (List.isEmpty_iff.1 hdeletions))
  case isFalse =>
    refine Prepared.makes_bind fun route => Prepared.makes_bind fun docs => Prepared.makes_pure ?_
    rw [call]
    split
    · exact .sent _
    · exact .failed _

/-- The names of the documents of a batch, in their places. -/
def batchNames : List DocId := upserts.map T.id ++ deletions.map Deletion.id

/-- **What a batch that was written says of its documents.** -/
structure Accounts (b : BatchWritten α) : Prop where
  upserts_eq : b.upserts = upserts
  deletions_eq : b.deletions = deletions
  /-- There is one outcome for each document, under its name, in its place. -/
  ids : b.outcomes.map BulkOutcome.id = (batchNames T upserts deletions).map DocId.text
  parts : b.upsertOutcomes ++ b.deletionOutcomes = b.outcomes
  length_upsertOutcomes : b.upsertOutcomes.length = upserts.length
  length_deletionOutcomes : b.deletionOutcomes.length = deletions.length
  /-- Where all must be written and something was not, that is the failure. -/
  strict : (∃ o ∈ b.outcomes, o.isOk = false) →
    b.updated T true = .error (.bulkFailed (b.outcomes.filter fun o => !o.isOk))
  /-- Else the first good outcome of an upsert without a revision is the failure; and else the upserts whose own
  outcome is good have its revision. -/
  updated : ∀ strict, (strict = true → ∀ o ∈ b.outcomes, o.isOk = true) →
    b.updated T strict = match b.upsertOutcomes.find? fun o => o.isOk && o.rev.isNone with
      | some o => .error (.responseRevisionMissing o.id)
      | none => .ok (upserts.zipIdx.filterMap (b.ofGood fun e o => o.rev.map (T.withRevision e)))
  deleted : b.deleted = (deletions.zipIdx upserts.length).filterMap (b.ofGood fun d _ => some d)
  /-- Nothing is counted twice, and nothing is left out. -/
  counted : ∀ es, b.updated T false = .ok es →
    es.length + (b.upsertOutcomes.filter fun o => !o.isOk).length = upserts.length
      ∧ b.deleted.length + (b.deletionOutcomes.filter fun o => !o.isOk).length = deletions.length
      ∧ es.length + b.deleted.length + b.failed.length = upserts.length + deletions.length

/-- What comes of outcomes for a batch: they are taken if they line up with its documents, and else refused for their
number or for the first that is for another document. -/
inductive Lined (os : List BulkOutcome) : Outcome (BatchWritten α) → Prop where
  | taken (ids : os.map BulkOutcome.id = (batchNames T upserts deletions).map DocId.text) :
    Lined os (.ok ⟨os, upserts, deletions⟩)
  | miscounted (length_ne : os.length ≠ (batchNames T upserts deletions).length) :
    Lined os (.error (.bulkMismatch
      (Misalignment.count (batchNames T upserts deletions).length os.length).words))
  | stray {i : Nat} {o : BulkOutcome} {id : DocId} (length_eq : os.length = (batchNames T upserts deletions).length)
    (found : os[i]? = some o) (expected : (batchNames T upserts deletions)[i]? = some id) (ne : o.id ≠ id.text)
    (before : (os.take i).map BulkOutcome.id = ((batchNames T upserts deletions).take i).map DocId.text) :
    Lined os (.error (.bulkMismatch (Misalignment.stray i o.id id.text).words))

variable {T upserts deletions}

/-- Outcomes that line up with the documents account for them. -/
theorem accounts_of_aligned {os : List BulkOutcome}
    (h : os.map BulkOutcome.id = (batchNames T upserts deletions).map DocId.text) :
    Accounts T upserts deletions ⟨os, upserts, deletions⟩ := by
  have hlength : os.length = upserts.length + deletions.length := by
    have hmap := congrArg List.length h
    simpa [batchNames] using hmap
  constructor
  case upserts_eq => rfl
  case deletions_eq => rfl
  case ids => exact h
  case parts => exact List.take_append_drop ..
  case length_upsertOutcomes => simp [BatchWritten.upsertOutcomes, hlength]
  case length_deletionOutcomes => simp [BatchWritten.deletionOutcomes, hlength]
  case strict => exact BatchWritten.updated_strict _ T
  case updated => exact fun strict hstrict => BatchWritten.updated_eq ⟨os, upserts, deletions⟩ T hstrict
  case deleted => exact BatchWritten.deleted_eq _
  case counted => exact fun es hes => BatchWritten.counted _ T hlength hes

/-- Outcomes under the names of the documents are taken. -/
theorem Lined.eq_ok {os : List BulkOutcome} {outcome : Outcome (BatchWritten α)}
    (h : Lined T upserts deletions os outcome)
    (hids : os.map BulkOutcome.id = (batchNames T upserts deletions).map DocId.text) :
    outcome = .ok ⟨os, upserts, deletions⟩ := by
  cases h with
  | taken => rfl
  | miscounted hne =>
    have hlength := congrArg List.length hids
    rw [List.length_map, List.length_map] at hlength
    exact absurd hlength hne
  | @stray i o id _ ho hid hne _ =>
    have hname : (os.map BulkOutcome.id)[i]? = ((batchNames T upserts deletions).map DocId.text)[i]? := by rw [hids]
    rw [List.getElem?_map, List.getElem?_map, ho, hid] at hname
    exact absurd (Option.some.inj hname) hne

/-- A reply with outcomes is taken or refused according to whether they line up with the documents. -/
theorem lined_batchWritten {reply : Reply} {os : List BulkOutcome} (hstatus : reply.status = 201)
    (hread : Reader.ofText (Reader.list BulkOutcome.reader) reply.text.toList = .ok os) :
    Lined T upserts deletions os (batchWritten T upserts deletions reply) := by
  have hreply : batchWritten T upserts deletions reply
      = (Misalignment.find? os (batchNames T upserts deletions)).elim (.ok ⟨os, upserts, deletions⟩)
        fun m => .error (.bulkMismatch m.words) := by
    rw [batchWritten, if_pos hstatus, hread, Outcome.ofRead_ok, Outcome.ok_bind, batchNames]
    cases Misalignment.find? os (upserts.map T.id ++ deletions.map Deletion.id) <;> rfl
  rw [hreply, Misalignment.find?]
  by_cases hlength : os.length = (batchNames T upserts deletions).length
  · rw [if_pos hlength]
    rcases Misalignment.firstStray?_spec 0 os _ hlength with ⟨hids, hnone⟩ | ⟨i, o, id, ho, hid, hne, hbefore, hstray⟩
    · rw [hnone]
      exact .taken hids
    · rw [hstray, Nat.zero_add]
      exact .stray hlength ho hid hne hbefore
  · rw [if_neg hlength]
    exact .miscounted hlength

/-- Whatever is taken as what became of a batch accounts for its documents. -/
theorem accounts_of_batchWritten {reply : Reply} {b : BatchWritten α}
    (h : batchWritten T upserts deletions reply = .ok b) : Accounts T upserts deletions b := by
  have hstatus : reply.status = 201 := by
    by_contra hne
    rw [batchWritten, if_neg hne] at h
    exact nomatch h
  obtain ⟨os, hos⟩ : ∃ os, Reader.ofText (Reader.list BulkOutcome.reader) reply.text.toList = .ok os := by
    rw [batchWritten, if_pos hstatus] at h
    obtain ⟨os, hos, -⟩ := Outcome.bind_eq_ok.1 h
    exact ⟨os, Outcome.ofRead_eq_ok.1 hos⟩
  have hlined : Lined T upserts deletions os (batchWritten T upserts deletions reply) :=
    lined_batchWritten hstatus hos
  rw [h] at hlined
  cases hlined with
  | taken hids => exact accounts_of_aligned hids

/-- What comes of the call for a batch accounts for its documents. -/
theorem BatchCall.accounts {call : Call (BatchWritten α)} (h : BatchCall T upserts deletions call) {answer : Answer}
    {b : BatchWritten α} (hb : call.result answer = .ok b) : Accounts T upserts deletions b := by
  cases h with
  | failed e => exact nomatch hb
  | empty hupserts hdeletions =>
    obtain rfl := Except.ok.inj hb
    exact accounts_of_aligned (by simp [batchNames, hupserts, hdeletions])
  | sent request =>
    rw [Call.result] at hb
    cases hreply : answer.reply? with
    | none => simp [hreply] at hb
    | some reply =>
      rw [hreply] at hb
      exact accounts_of_batchWritten hb

/-- What comes of a batch that is sent is made of the reply. -/
theorem BatchCall.result_eq {call : Call (BatchWritten α)} (h : BatchCall T upserts deletions call) {r : Request}
    (hr : call.request? = some r) {answer : Answer} {reply : Reply} (hreply : answer.reply? = some reply) :
    call.result answer = batchWritten T upserts deletions reply := by
  cases h with
  | failed e => exact nomatch hr
  | empty hupserts hdeletions => exact nomatch hr
  | sent request => rw [Call.result, hreply]

variable (T upserts deletions)

/-- **Every document of a batch has its own outcome**, whatever the reply and however often a name stands in the batch:
what comes of the batch accounts for its documents by place. Of a reply with outcomes something comes exactly if they
line up with the documents; else the failure says how many there are, or which is the first that is for another
document. A new revision changes nothing else about an entity. -/
theorem batch_accounted (answer : Answer) :
    (∀ b, (c.writeBatchIn T db upserts deletions routes).1.result answer = .ok b → Accounts T upserts deletions b)
    ∧ (∀ r reply os, (c.writeBatchIn T db upserts deletions routes).1.request? = some r →
        answer.reply? = some reply → reply.status = 201 →
        Reader.ofText (Reader.list BulkOutcome.reader) reply.text.toList = .ok os →
        Lined T upserts deletions os ((c.writeBatchIn T db upserts deletions routes).1.result answer))
    ∧ ∀ (k : EntityKind) (e : StockEntity) rev, e.kind = k → e.Fits →
        k.type.AtRevision e rev (k.type.withRevision e rev) := by
  refine ⟨fun b hb => ?_, fun r reply os hr hreply hstatus hread => ?_, fun k e rev hk hfits => ?_⟩
  · exact (batchCall_writeBatchIn c T db upserts deletions routes).accounts hb
  · rw [(batchCall_writeBatchIn c T db upserts deletions routes).result_eq hr hreply]
    exact lined_batchWritten hstatus hread
  · exact k.faithful.atRevision ⟨hk, hfits⟩ rev

/-- Two entities of one name. -/
def sampleUpserts : List StockEntity := [.test { id := ⟨"a"⟩, label := "x" }, .test { id := ⟨"a"⟩, label := "y" }]

/-- A deletion of the document of that name. -/
def sampleDeletions : List Deletion := [⟨⟨"a"⟩, ⟨"1-z"⟩⟩]

/-- The call that writes the two and deletes the document. -/
def sampleBatch : Call (BatchWritten StockEntity) :=
  (sample.writeBatchIn EntityKind.test.type ⟨"db"⟩ sampleUpserts sampleDeletions .sample).1

/-- What a server says that refuses the first of the two. -/
def sampleOutcomes : List BulkOutcome :=
  [{ id := "a", error := some "conflict" }, { id := "a", rev := some ⟨"2-y"⟩ }, { id := "a", ok := true }]

/-- The reply of the server. -/
def sampleReply : Reply where
  status := 201
  text := "[\x7b\"id\":\"a\",\"error\":\"conflict\"\x7d,\x7b\"id\":\"a\",\"rev\":\"2-y\"\x7d,"
    ++ "\x7b\"id\":\"a\",\"ok\":true\x7d]"

/-- The entity that was written has the revision of its own outcome, though the name stands in the batch three times. -/
theorem batch_accounted_sample : ∃ b, sampleBatch.result sampleReply.answer = .ok b
    ∧ Accounts EntityKind.test.type sampleUpserts sampleDeletions b
    ∧ b.updated EntityKind.test.type false = .ok [.test { id := ⟨"a"⟩, revision := some ⟨"2-y"⟩, label := "y" }]
    ∧ b.deleted = sampleDeletions := by
  have haccounted := batch_accounted sample EntityKind.test.type ⟨"db"⟩ sampleUpserts sampleDeletions .sample
    sampleReply.answer
  have hread : Reader.ofText (Reader.list BulkOutcome.reader) sampleReply.text.toList = .ok sampleOutcomes := by
    decide +kernel
  obtain ⟨r, hr⟩ : ∃ r, sampleBatch.request? = some r := Option.isSome_iff_exists.1 (by decide +kernel)
  have hb := (haccounted.2.1 r sampleReply _ hr sampleReply.reply?_answer rfl hread).eq_ok rfl
  exact ⟨_, hb, haccounted.1 _ hb, rfl, rfl⟩

end Client
end DocClient
