/-
# What a reply comes to

Every request of a call that is done in one exchange is of one of six families, and the family says which statuses are
successes and which failures the call documents:

| family | successes | documented failures |
| --- | --- | --- |
| a read | 200; 404 says that there is nothing | 304, 400, 401, 403 |
| a write | 201, 202 | 400, 401, 404, 409 |
| a deletion | 200, 202 | 400, 401, 404, 409 |
| a batch of writes | 201 | 400, 401, 404 |
| a batch of reads | 200 | 400, 401, 404, 415 |
| a view | 200 | 304, 400, 401, 403, 404 |

What comes of a reply (`Heeded`) follows from its status and its text. Of the text of a success nothing is lost
(`Heeded.given`):

| family | the text says | what comes of it |
| --- | --- | --- |
| a read | a document | its entity |
| a write | an acknowledgement | the entity at its new revision, none, or a failure (`Written.Acknowledged`) |
| a deletion | an acknowledgement | that acknowledgement |
| a batch of writes | outcomes | all of them in their places, or a failure (`Client.Lined`) |
| a batch of reads | entries | each of them in its list, or the first failure (`BatchRead.Sorts`) |
| a view | rows | each of them in its place, or the first failure (`ViewRows.Resolved`) |
-/

import DocClient.Proofs.Dispatch
import DocClient.Proofs.Store.Accounting
import DocClient.Proofs.Store.Places
import DocClient.Proofs.Store.ViewRows

namespace DocClient

/-- The families of requests, by what their replies may be. -/
inductive RequestFamily where
  | read
  | write
  | deletion
  | batchWrite
  | batchRead
  | view
deriving DecidableEq, Repr

namespace RequestFamily

/-- The method of the requests of a family. -/
def method : RequestFamily → Method
  | .read => .get
  | .write => .put
  | .deletion => .delete
  | .batchWrite | .batchRead | .view => .post

/-- The statuses that are successes. -/
def successes : RequestFamily → List Nat
  | .read | .batchRead | .view => [200]
  | .write => [201, 202]
  | .deletion => [200, 202]
  | .batchWrite => [201]

/-- The statuses that are failures of their own. -/
def documented : RequestFamily → List Nat
  | .read => [304, 400, 401, 403]
  | .write | .deletion => [400, 401, 404, 409]
  | .batchWrite => [400, 401, 404]
  | .batchRead => [400, 401, 404, 415]
  | .view => [304, 400, 401, 403, 404]

/-- The failures that a reply of the expected shape may still be. -/
def MayFail : RequestFamily → ClientError → Prop
  | .read | .deletion => fun _ => False
  | .write => fun e => ∃ id, e = .responseRevisionMissing id
  | .batchWrite => fun e => ∃ text, e = .bulkMismatch text
  | .batchRead => fun e =>
    (∃ id field, e = .missingClassField id field) ∨ (∃ name id, e = .unknownClass name id)
      ∨ ∃ error, e = .serialization error
  | .view => fun e => (∃ id, e = .missingDocument id) ∨ ∃ error, e = .serialization error

/-- What a reply of the expected shape fails for is no conflict. -/
theorem MayFail.isConflict_eq_false {f : RequestFamily} {e : ClientError} (h : f.MayFail e) : e.isConflict = false := by
  cases f with
  | read => exact h.elim
  | deletion => exact h.elim
  | write =>
    obtain ⟨id, rfl⟩ := h
    rfl
  | batchWrite =>
    obtain ⟨text, rfl⟩ := h
    rfl
  | batchRead => rcases h with ⟨id, field, rfl⟩ | ⟨name, id, rfl⟩ | ⟨error, rfl⟩ <;> rfl
  | view => rcases h with ⟨id, rfl⟩ | ⟨error, rfl⟩ <;> rfl

/-- Only where one document is written or deleted can its revision turn out not to be the latest. -/
theorem conflict_mem_documented {f : RequestFamily} : 409 ∈ f.documented ↔ f.method = .put ∨ f.method = .delete := by
  cases f <;> decide

theorem conflict_not_mem_successes {f : RequestFamily} : 409 ∉ f.successes := by
  cases f <;> decide

end RequestFamily

/-- A status is a conflict if it is documented and the one that stands for conflicts. -/
theorem ClientError.isConflict_ofStatus {documented : List Nat} {status : Nat} {text : String} :
    (ofStatus documented status text).isConflict = true ↔ status ∈ documented ∧ status = 409 := by
  by_cases hstatus : status ∈ documented
  · simp only [ofStatus, List.contains_iff_mem, hstatus, if_true, true_and]
    unfold StatusFailure.ofStatus
    split <;> simp_all [isConflict]
  · simp [ofStatus, hstatus, isConflict]

/-- The status that a failure is named after. -/
def StatusFailure.status? : StatusFailure → Option Nat
  | .badRequest => some 400
  | .unauthorized => some 401
  | .forbidden => some 403
  | .notFound => some 404
  | .conflict => some 409
  | .notModified => some 304
  | .preconditionFailed => some 412
  | .unsupportedMediaType => some 415
  | .unsupportedStatus => none

/-- A documented status is that of its failure. -/
theorem RequestFamily.status?_ofStatus {f : RequestFamily} {status : Nat} (h : status ∈ f.documented) :
    (StatusFailure.ofStatus status).status? = some status := by
  cases f <;>
    simp only [documented, List.mem_cons, List.not_mem_nil, or_false] at h <;>
    rcases h with rfl | rfl | rfl | rfl | rfl <;> rfl

/-- **What the reply to a request comes to,** given the family of the request, what texts have the expected shape, what
such a text comes to and what comes of a read that found nothing. -/
structure Heeded {α : Type} (f : RequestFamily) (legible : String → Prop) (comes : String → Outcome α → Prop)
    (absent : String → α → Prop) (r : Request) (reply : Reply) (result : Outcome α) : Prop where
  /-- The request is made by the method of its family. -/
  asked : r.method = f.method
  /-- Only a success of the expected shape goes through, and a read that found nothing. -/
  succeeds : ∀ a, result = .ok a →
    reply.status ∈ f.successes ∧ legible reply.text ∨ f = .read ∧ reply.status = 404 ∧ absent reply.text a
  /-- A read that found nothing is no failure, whatever its text is. -/
  missing : f = .read → reply.status = 404 → ∃ a, result = .ok a ∧ absent reply.text a
  /-- Any other status is the failure named after it, if the family documents it, and else an unsupported one; the
  failure tells the status and keeps the whole text. -/
  refused : reply.status ∉ f.successes → ¬(f = .read ∧ reply.status = 404) →
    ∃ failure told, result = .error (.status failure told) ∧ told.status = reply.status ∧ told.text = reply.text
      ∧ (reply.status ∈ f.documented → failure.status? = some reply.status)
      ∧ (reply.status ∉ f.documented → failure = .unsupportedStatus)
  /-- A success whose text has another shape is a failure to read it. -/
  garbled : reply.status ∈ f.successes → ¬legible reply.text → ∃ error, result = .error (.serialization error)
  /-- A success of the expected shape comes to what its text says. -/
  given : reply.status ∈ f.successes → legible reply.text → comes reply.text result
  /-- A success of the expected shape fails for what it says, if it does. -/
  sound : reply.status ∈ f.successes → legible reply.text → ∀ e, result = .error e → f.MayFail e
  /-- There is a conflict exactly if the write or deletion of one document meets the status for it. -/
  conflict : (∃ e, result = .error e ∧ e.isConflict = true)
    ↔ reply.status = 409 ∧ (r.method = .put ∨ r.method = .delete)

/-- A text is one of those that a reader reads. -/
def Reads {γ : Type} (r : Reader γ) (text : String) : Prop := ∃ a, Reader.ofText r text.toList = .ok a

/-- A text is a document that is decoded, and what the server looks after in it can be read. -/
def ReadsDocument {α : Type} (decode : Object → Outcome α) (text : String) : Prop :=
  ∃ document system e, Reader.ofText Reader.object text.toList = .ok document
    ∧ SystemFields.reader.ofJson (.obj (Envelope.split document).1) = .ok system
    ∧ decode (Envelope.split document).2 = .ok e

/-- What comes of a text that is read as some value, given what may be made of the value. -/
def Yields {α γ : Type} (r : Reader γ) (made : γ → Outcome α → Prop) (text : String) (result : Outcome α) : Prop :=
  ∃ a, Reader.ofText r text.toList = .ok a ∧ made a result

/-- What comes of a text that is a document: what is given of the entity and of what the server looks after in it. -/
def YieldsDocument {α β : Type} (decode : Object → Outcome α) (give : SystemFields → α → β) (text : String)
    (result : Outcome β) : Prop :=
  ∃ document system e, Reader.ofText Reader.object text.toList = .ok document
    ∧ SystemFields.reader.ofJson (.obj (Envelope.split document).1) = .ok system
    ∧ decode (Envelope.split document).2 = .ok e ∧ result = .ok (give system e)

/-- A value is given as it is. -/
def Plainly {α : Type} (a : α) (result : Outcome α) : Prop := result = .ok a

/-- **What the acknowledgement of a write comes to:** the entity at its new revision if it was written, a failure if no
revision was told, and no entity if it was not written. -/
inductive Written.Acknowledged {α : Type} (T : EntityType α) (e : α) (told : WriteReply) : Outcome (Written α) → Prop
  | written {rev : Revision} (ok : told.ok = true) (rev_eq : told.rev = some rev) :
    Acknowledged T e told (.ok ⟨told, some (T.withRevision e rev)⟩)
  | unrevised (ok : told.ok = true) (rev_eq : told.rev = none) :
    Acknowledged T e told (.error (.responseRevisionMissing told.id))
  | declined (ok : told.ok = false) : Acknowledged T e told (.ok ⟨told, none⟩)

theorem Written.acknowledged_ofReply {α : Type} (T : EntityType α) (e : α) (told : WriteReply) :
    Acknowledged T e told (ofReply T e told) := by
  rw [ofReply]
  split
  · rename_i hok
    split
    · exact .written hok ‹_›
    · exact .unrevised hok ‹_›
  · exact .declined (Bool.eq_false_iff.2 ‹_›)

/-- **What the rows of a view come to:** every row as it resolves, or the failure of the first row that does not. -/
inductive ViewRows.Resolved {β : Type} (r : Reader β) (classField : String) (includeDocs : Bool) (raw : RawRows) :
    Outcome (ViewRows β) → Prop
  | decoded {v : ViewRows β} (rows : ViewRows.Decodes r classField includeDocs raw v) :
    Resolved r classField includeDocs raw (.ok v)
  | failed {before after : List RawRow} {row : RawRow} {e : ClientError} (split : raw.rows = before ++ row :: after)
    (resolve : ∀ b ∈ before, ∃ value, b.Resolves r classField includeDocs value)
    (fails : row.Fails r classField includeDocs e) : Resolved r classField includeDocs raw (.error e)

theorem Client.resolved_decodeRows {β : Type} (c : Client) (r : Reader β) (includeDocs : Bool) (raw : RawRows) :
    ViewRows.Resolved r c.settings.classField includeDocs raw (c.decodeRows r includeDocs raw) := by
  cases hrows : c.decodeRows r includeDocs raw with
  | ok v => exact .decoded ((c.decodeRows_eq_ok_iff r).1 hrows)
  | error e =>
    obtain ⟨before, row, after, hsplit, hbefore, hfails⟩ := (c.decodeRows_eq_error_iff r).1 hrows
    exact .failed hsplit hbefore hfails

/-- **What the entries of a batch of reads come to:** each of them in its list, or the failure of the first live document
that is not decoded. -/
inductive BatchRead.Sorts {ε : Type} (D : Dispatch ε) (classField : String) (found : List (String × BatchEntry)) :
    Outcome (BatchRead ε) → Prop
  | sorted {b : BatchRead ε} (tells : Tells D classField found b) : Sorts D classField found (.ok b)
  | failed {e : ClientError} (fails : FailsFirst D classField found e) : Sorts D classField found (.error e)

theorem BatchRead.sorts_ofEntries {ε : Type} (D : Dispatch ε) (classField : String)
    (found : List (String × BatchEntry)) : Sorts D classField found (ofEntries D classField found) := by
  cases hentries : ofEntries D classField found with
  | ok b => exact .sorted (ofEntries_eq_ok.1 hentries)
  | error e => exact .failed (ofEntries_eq_error.1 hentries)

/-- What the items of a batch of reads come to. -/
def Client.Sorts {ε : Type} (c : Client) (D : Dispatch ε) (items : List BatchItem) : Outcome (BatchRead ε) → Prop :=
  BatchRead.Sorts D c.settings.classField (BatchRead.entries items)

/-- **What the server says of a document that it does not have:** the error and its reason, and no member besides. -/
structure SaysAbsent (text : String) (system : SystemFields) : Prop where
  named : ∀ body, Reader.ofText ErrorBody.reader text.toList = .ok body → body.error ≠ "" →
    system.error = some body.error ∧ system.reason = body.reason
  silent : ¬Reads ErrorBody.reader text → system = {}
  bare : system = { error := system.error, reason := system.reason }

/-- A way to take replies that heeds their status, given what texts have the expected shape, what such a text comes to
and what comes of a read that found nothing. -/
structure Heeds {α : Type} (f : RequestFamily) (legible : String → Prop) (comes : String → Outcome α → Prop)
    (absent : String → α → Prop) (receive : Reply → Outcome α) : Prop where
  /-- A status that is no success is the failure. -/
  refused : ∀ reply, reply.status ∉ f.successes → (f = .read → reply.status ≠ 404) →
    receive reply = .error (.ofStatus f.documented reply.status reply.text)
  /-- A read that found nothing goes through. -/
  missing : f = .read → ∀ text, ∃ a, receive ⟨404, text⟩ = .ok a ∧ absent text a
  /-- A success whose text has another shape cannot be read. -/
  garbled : ∀ reply, reply.status ∈ f.successes → ¬legible reply.text →
    ∃ error, receive reply = .error (.serialization error)
  /-- A success whose text has the shape comes to what the text says. -/
  given : ∀ reply, reply.status ∈ f.successes → legible reply.text → comes reply.text (receive reply)
  /-- A success whose text has the shape fails for what it says, if it does. -/
  sound : ∀ reply e, reply.status ∈ f.successes → legible reply.text → receive reply = .error e → f.MayFail e

section Receiving

variable {α β γ ε : Type} {f : RequestFamily} {legible : String → Prop} {comes : String → Outcome α → Prop}
  {absent : String → α → Prop} {receive : Reply → Outcome α}

/-- A success is no conflict, whatever it fails for. -/
theorem Heeds.isConflict_of_success (h : Heeds f legible comes absent receive) {reply : Reply}
    (hstatus : reply.status ∈ f.successes) {e : ClientError} (he : receive reply = .error e) : e.isConflict = false := by
  by_cases hlegible : legible reply.text
  · exact (h.sound reply e hstatus hlegible he).isConflict_eq_false
  · obtain ⟨error, herror⟩ := h.garbled reply hstatus hlegible
    obtain rfl := Except.error.inj (herror.symm.trans he)
    rfl

/-- **A reply that is read if its status is a success** is heeded, if what is made of the value fails for what may be. -/
theorem heeds_of_reads {r : Reader γ} {made : γ → Outcome α → Prop} (hf : f ≠ .read)
    (hfails : ∀ a e, made a (.error e) → f.MayFail e)
    (hread : ∀ reply a, reply.status ∈ f.successes → Reader.ofText r reply.text.toList = .ok a → made a (receive reply))
    (hgarbled : ∀ reply error, reply.status ∈ f.successes → Reader.ofText r reply.text.toList = .error error →
      receive reply = .error (.serialization error))
    (hrefused : ∀ reply, reply.status ∉ f.successes →
      receive reply = .error (.ofStatus f.documented reply.status reply.text)) :
    Heeds f (Reads r) (Yields r made) absent receive where
  refused reply hstatus _ := hrefused reply hstatus
  missing hread := absurd hread hf
  garbled reply hstatus hnot := by
    cases htext : Reader.ofText r reply.text.toList with
    | ok a => exact absurd ⟨a, htext⟩ hnot
    | error error => exact ⟨error, hgarbled reply error hstatus htext⟩
  given reply hstatus hlegible := by
    obtain ⟨a, htext⟩ := hlegible
    exact ⟨a, htext, hread reply a hstatus htext⟩
  sound reply e hstatus hlegible he := by
    obtain ⟨a, htext⟩ := hlegible
    exact hfails a e (he ▸ hread reply a hstatus htext)

/-- What is gone on with stays heeded, if going on fails for what may be, and goes through where a read found nothing. -/
theorem Heeds.andThen {comes' : String → Outcome β → Prop} {absent' : String → β → Prop}
    (h : Heeds f legible comes absent receive) {g : α → Outcome β}
    (hcomes : ∀ text result, comes text result → comes' text (result.bind g))
    (hg : ∀ a e, g a = .error e → f.MayFail e)
    (habsent : f = .read → ∀ text a, absent text a → ∃ b, g a = .ok b ∧ absent' text b) :
    Heeds f legible comes' absent' fun reply => (receive reply).bind g where
  refused reply hstatus hfound := by
    rw [h.refused reply hstatus hfound]
    rfl
  missing hread text := by
    obtain ⟨a, ha, hsays⟩ := h.missing hread text
    obtain ⟨b, hb, hsays'⟩ := habsent hread text a hsays
    exact ⟨b, by rw [ha]; exact hb, hsays'⟩
  garbled reply hstatus hnot := by
    obtain ⟨error, herror⟩ := h.garbled reply hstatus hnot
    exact ⟨error, by rw [herror]; rfl⟩
  given reply hstatus hlegible := hcomes _ _ (h.given reply hstatus hlegible)
  sound reply e hstatus hlegible he := by
    cases hreceive : receive reply with
    | ok a =>
      rw [hreceive] at he
      exact hg a e he
    | error e' =>
      rw [hreceive] at he
      obtain rfl := Except.error.inj he
      exact h.sound reply e' hstatus hlegible hreceive

/-- **A reply that is heeded comes to what its status and its text say.** -/
theorem Heeds.heeded (h : Heeds f legible comes absent receive) {r : Request} (hasked : r.method = f.method)
    (reply : Reply) : Heeded f legible comes absent r reply (receive reply) where
  asked := hasked
  succeeds a ha := by
    by_cases hstatus : reply.status ∈ f.successes
    · refine .inl ⟨hstatus, by_contra fun hnot => ?_⟩
      obtain ⟨error, herror⟩ := h.garbled reply hstatus hnot
      exact nomatch ha.symm.trans herror
    · by_cases hmissing : f = .read ∧ reply.status = 404
      · obtain ⟨hread, hnotFound⟩ := hmissing
        obtain ⟨b, hb, hsays⟩ := h.missing hread reply.text
        rw [← hnotFound] at hb
        obtain rfl := Except.ok.inj (ha.symm.trans hb)
        exact .inr ⟨hread, hnotFound, hsays⟩
      · exact nomatch ha.symm.trans (h.refused reply hstatus (not_and.1 hmissing))
  missing hread hnotFound := by
    have hfound := h.missing hread reply.text
    rwa [← hnotFound] at hfound
  refused hstatus hfound := by
    refine ⟨_, _, h.refused reply hstatus (not_and.1 hfound), rfl, rfl, fun hmem => ?_, fun hnot => ?_⟩
    · rw [if_pos (List.contains_iff_mem.2 hmem)]
      exact RequestFamily.status?_ofStatus hmem
    · exact if_neg (mt List.contains_iff_mem.1 hnot)
  garbled hstatus hnot := h.garbled reply hstatus hnot
  given hstatus hlegible := h.given reply hstatus hlegible
  sound hstatus hlegible e he := h.sound reply e hstatus hlegible he
  conflict := by
    rw [hasked, ← RequestFamily.conflict_mem_documented]
    constructor
    · rintro ⟨e, he, hconflict⟩
      by_cases hstatus : reply.status ∈ f.successes
      · exact absurd hconflict (by simp [h.isConflict_of_success hstatus he])
      · by_cases hmissing : f = .read ∧ reply.status = 404
        · obtain ⟨a, ha, -⟩ := h.missing hmissing.1 reply.text
          rw [← hmissing.2] at ha
          exact nomatch ha.symm.trans he
        · obtain rfl := Except.error.inj ((h.refused reply hstatus (not_and.1 hmissing)).symm.trans he)
          obtain ⟨hmem, hvalue⟩ := ClientError.isConflict_ofStatus.1 hconflict
          exact ⟨hvalue, hvalue ▸ hmem⟩
    · rintro ⟨hvalue, hmem⟩
      have hstatus : reply.status ∉ f.successes := hvalue ▸ RequestFamily.conflict_not_mem_successes
      have hfound : f = .read → reply.status ≠ 404 := fun _ => by omega
      exact ⟨_, h.refused reply hstatus hfound, ClientError.isConflict_ofStatus.2 ⟨hvalue ▸ hmem, hvalue⟩⟩

/-- What is made of the text of a 404 is what the server says of a document that it does not have. -/
theorem saysAbsent (text : String) : SaysAbsent text (.absent text) := by
  cases hbody : Reader.ofText ErrorBody.reader text.toList with
  | ok body =>
    refine ⟨fun body' hbody' hnamed => ?_, fun hnot => absurd ⟨body, hbody⟩ hnot, rfl⟩
    obtain rfl := Except.ok.inj (hbody.symm.trans hbody')
    simp [SystemFields.absent, hbody, Except.toOption, hnamed]
  | error e =>
    refine ⟨fun body' hbody' => ?_, fun _ => ?_, rfl⟩
    · rw [hbody] at hbody'
      cases hbody'
    · simp [SystemFields.absent, hbody, Except.toOption]

/-- **A read heeds the status,** if what cannot be decoded is a failure to read it. -/
theorem heeds_read {decode : Object → Outcome α} (hdecode : ∀ o e, decode o = .error e → ∃ error, e = .serialization error) :
    Heeds .read (ReadsDocument decode) (YieldsDocument decode fun system e => (system, some e))
      (fun text found => SaysAbsent text found.1 ∧ found.2 = none) fun reply => (readReply reply).bind (decodeFound decode) where
  refused reply hstatus hfound := by
    have hnotFound := hfound rfl
    simp only [RequestFamily.successes, List.mem_singleton] at hstatus
    rw [readReply]
    split
    · exact absurd ‹_› hstatus
    · exact absurd ‹_› hnotFound
    · rfl
  missing _ text := ⟨(.absent text, none), rfl, saysAbsent text, rfl⟩
  garbled reply hstatus hnot := by
    obtain ⟨status, text⟩ := reply
    obtain rfl : status = 200 := by simpa [RequestFamily.successes] using hstatus
    simp only [readReply]
    cases hdocument : Reader.ofText Reader.object text.toList with
    | error e => exact ⟨e, rfl⟩
    | ok document =>
      simp only [Outcome.ofRead_ok, Outcome.ok_bind]
      cases hsystem : SystemFields.reader.ofJson (.obj (Envelope.split document).1) with
      | error e => exact ⟨e, rfl⟩
      | ok system =>
        cases hentity : decode (Envelope.split document).2 with
        | ok e => exact absurd ⟨document, system, e, hdocument, hsystem, hentity⟩ hnot
        | error e =>
          obtain ⟨error, rfl⟩ := hdecode _ _ hentity
          exact ⟨error, by simp [Except.bind, decodeFound, hentity]⟩
  given reply hstatus hlegible := by
    obtain ⟨status, text⟩ := reply
    obtain rfl : status = 200 := by simpa [RequestFamily.successes] using hstatus
    obtain ⟨document, system, entity, hdocument, hsystem, hentity⟩ := hlegible
    refine ⟨document, system, entity, hdocument, hsystem, hentity, ?_⟩
    simp [readReply, hdocument, hsystem, Except.bind, decodeFound, hentity]
  sound reply e hstatus hlegible he := by
    obtain ⟨status, text⟩ := reply
    obtain rfl : status = 200 := by simpa [RequestFamily.successes] using hstatus
    obtain ⟨document, system, entity, hdocument, hsystem, hentity⟩ := hlegible
    simp [readReply, hdocument, hsystem, Except.bind, decodeFound, hentity] at he

theorem writeReply_of_mem {successes : List Nat} {reply : Reply} (h : reply.status ∈ successes) :
    writeReply successes reply = Outcome.ofRead (Reader.ofText WriteReply.reader reply.text.toList) := by
  simp [writeReply, h]

theorem writeReply_of_not_mem {successes : List Nat} {reply : Reply} (h : reply.status ∉ successes) :
    writeReply successes reply = .error (.ofStatus writeStatuses reply.status reply.text) := by
  simp [writeReply, h]

/-- A write fails for what its reply says only if it was acknowledged without a revision. -/
theorem heeds_write (T : EntityType α) (e : α) {absent : String → Written α → Prop} :
    Heeds .write (Reads WriteReply.reader) (Yields WriteReply.reader (Written.Acknowledged T e)) absent fun reply =>
      writeReply [201, 202] reply >>= Written.ofReply T e := by
  refine heeds_of_reads (by decide) (fun told e' h => ?_) (fun reply told hstatus htext => ?_)
    (fun reply error hstatus htext => ?_) fun reply hstatus => ?_
  · cases h with
    | unrevised => exact ⟨_, rfl⟩
  · rw [writeReply_of_mem (show reply.status ∈ [201, 202] from hstatus), htext]
    exact Written.acknowledged_ofReply T e told
  · rw [writeReply_of_mem (show reply.status ∈ [201, 202] from hstatus), htext]
    rfl
  · rw [writeReply_of_not_mem (show reply.status ∉ [201, 202] from hstatus)]
    rfl

theorem heeds_delete {absent : String → WriteReply → Prop} :
    Heeds .deletion (Reads WriteReply.reader) (Yields WriteReply.reader Plainly) absent (writeReply [200, 202]) := by
  refine heeds_of_reads (by decide) (fun told e' h => nomatch h) (fun reply told hstatus htext => ?_)
    (fun reply error hstatus htext => ?_) fun reply hstatus => ?_
  · rw [writeReply_of_mem (show reply.status ∈ [200, 202] from hstatus), htext]
    rfl
  · rw [writeReply_of_mem (show reply.status ∈ [200, 202] from hstatus), htext]
    rfl
  · exact writeReply_of_not_mem hstatus

theorem heeds_view {absent : String → RawRows → Prop} :
    Heeds .view (Reads RawRows.reader) (Yields RawRows.reader Plainly) absent Client.viewReply := by
  refine heeds_of_reads (by decide) (fun rows e' h => nomatch h) (fun reply rows hstatus htext => ?_)
    (fun reply error hstatus htext => ?_) fun reply hstatus => ?_
  · rw [Client.viewReply, if_pos (List.mem_singleton.1 hstatus), htext]
    rfl
  · rw [Client.viewReply, if_pos (List.mem_singleton.1 hstatus), htext]
    rfl
  · rw [Client.viewReply, if_neg (mt List.mem_singleton.2 hstatus)]
    rfl

/-- A batch of writes fails for what its reply says only if the outcomes are not those of its documents. -/
theorem heeds_batchWrite (T : EntityType α) (upserts : List α) (deletions : List Deletion)
    {absent : String → BatchWritten α → Prop} :
    Heeds .batchWrite (Reads (Reader.list BulkOutcome.reader))
      (Yields (Reader.list BulkOutcome.reader) (Client.Lined T upserts deletions)) absent
      (Client.batchWritten T upserts deletions) := by
  refine heeds_of_reads (by decide) (fun outcomes e' h => ?_) (fun reply outcomes hstatus htext => ?_)
    (fun reply error hstatus htext => ?_) fun reply hstatus => ?_
  · cases h <;> exact ⟨_, rfl⟩
  · exact Client.lined_batchWritten (List.mem_singleton.1 hstatus) htext
  · rw [Client.batchWritten, if_pos (List.mem_singleton.1 hstatus), htext]
    rfl
  · rw [Client.batchWritten, if_neg (mt List.mem_singleton.2 hstatus)]
    rfl

/-- A batch of reads fails for what its reply says only if a document of it is not decoded. -/
theorem heeds_batchRead (c : Client) (steps : List (Dispatch.Step ε)) {absent : String → BatchRead ε → Prop} :
    Heeds .batchRead (Reads BatchItem.listReader) (Yields BatchItem.listReader (c.Sorts (Dispatch.build steps))) absent
      (c.batchRead (Dispatch.build steps)) := by
  refine heeds_of_reads (by decide) (fun items e' h => ?_) (fun reply items hstatus htext => ?_)
    (fun reply error hstatus htext => ?_) fun reply hstatus => ?_
  · cases h with
    | failed hfirst =>
      obtain ⟨-, -, d, -, -, -, -, hfails⟩ := hfirst
      rcases (Dispatch.agrees_build steps).fault hfails with ⟨-, rfl⟩ | ⟨name, -, rfl | ⟨error, rfl⟩⟩
      · exact .inl ⟨_, _, rfl⟩
      · exact .inr (.inl ⟨_, _, rfl⟩)
      · exact .inr (.inr ⟨error, rfl⟩)
  · rw [Client.batchRead, if_pos (List.mem_singleton.1 hstatus), htext]
    exact BatchRead.sorts_ofEntries _ _ _
  · rw [Client.batchRead, if_pos (List.mem_singleton.1 hstatus), htext]
    rfl
  · rw [Client.batchRead, if_neg (mt List.mem_singleton.2 hstatus)]
    rfl

/-- The rows of a view fail for a document that is missing, or for what cannot be read. -/
theorem mayFail_of_decodeRows {c : Client} {values : Reader β} {includeDocs : Bool} {raw : RawRows} {e : ClientError}
    (h : c.decodeRows values includeDocs raw = .error e) : RequestFamily.view.MayFail e := by
  obtain ⟨-, row, -, -, -, hfails⟩ := (c.decodeRows_eq_error_iff values).1 h
  cases hfails with
  | noDocument => exact .inl ⟨_, rfl⟩
  | document hdoc hread => exact .inr (Outcome.exists_fault_of_ofRead hread)
  | value hvalue hread =>
    cases hshape : row.value <;> rw [hshape] at hread <;> exact .inr (Outcome.exists_fault_of_ofRead hread)

end Receiving

end DocClient
