/-
# What a call under way comes to

What a client may hold was made of an entity that some version stores, at the revision of that version (`Sound`).
Revisions are never given twice, so this is the entity that is there now exactly when its revision is live
(`Sound.base_eq_current_iff`). Hence what becomes of a call that is served now (`Fulfils`):

| a call under way | if it is served now |
| --- | --- |
| a read | gives the entity that is there now, exactly if that can be read (`Reads`) |
| a write or deletion of an entity made of the one that is there | goes through, and leaves what it says (`Writes`) |
| a write or deletion of any other | is refused with a conflict, and changes nothing (`Writes`) |
| an insertion of what was stored, an update or deletion of what was not | sent nothing: it is a misuse |
-/

import DocClient.Proofs.Store.Sharing
import Mathlib.Data.List.Nodup

namespace DocClient
namespace Site

variable {α : Type} {S : Site α} {history : History} {h : Holding α}

variable (S) in
/-- What a client may hold, given the versions that there are. -/
structure Sound (history : History) (h : Holding α) : Prop where
  valid : S.Valid h.now
  id_eq : S.type.id h.now = S.id
  revision_eq : S.type.revision h.now = h.base.bind S.type.revision
  stored : ∀ e, h.base = some e →
    ∃ rev body, ⟨rev, some body⟩ ∈ history ∧ S.Stores (History.document rev body) e

/-- What may be held may be held later. -/
theorem Sound.mono (hs : S.Sound history h) {later : History} (hsub : ∀ v ∈ history, v ∈ later) :
    S.Sound later h where
  valid := hs.valid
  id_eq := hs.id_eq
  revision_eq := hs.revision_eq
  stored e he := by
    obtain ⟨rev, body, hmem, hstores⟩ := hs.stored e he
    exact ⟨rev, body, hsub _ hmem, hstores⟩

/-- The entity that is there now may be held. -/
theorem Kept.sound_current (hk : S.Kept history) {e : α} (he : S.current history = some e) :
    S.Sound history ⟨some e, e⟩ := by
  obtain ⟨rev, body, hlive, hstores⟩ := hk.live_of_current he
  refine ⟨hstores.valid, hstores.id_eq, rfl, fun e' he' => ?_⟩
  obtain rfl := Option.some.inj he'
  exact ⟨rev, body, History.mem_of_live? hlive, hstores⟩

/-- Two versions of one revision are one version. -/
theorem Kept.eq_of_rev (hk : S.Kept history) {v w : Version} (hv : v ∈ history) (hw : w ∈ history)
    (hrev : v.rev = w.rev) : v = w :=
  List.inj_on_of_nodup_map hk.distinct hv hw hrev

/-- **What is held is made of the entity that is there now exactly when its revision is live.** -/
theorem Sound.base_eq_current_iff (hs : S.Sound history h) (hk : S.Kept history) :
    h.base = S.current history ↔ S.type.revision h.now = history.live?.map Prod.fst := by
  rw [hs.revision_eq]
  constructor
  · intro hbase
    rw [hbase]
    cases hcurrent : S.current history with
    | none =>
      cases hlive : history.live? with
      | none => rfl
      | some v =>
        obtain ⟨rev, body⟩ := v
        obtain ⟨e, he⟩ := hk.stores _ (History.mem_of_live? hlive) body rfl
        rw [current_eq_some hlive he] at hcurrent
        cases hcurrent
    | some e =>
      obtain ⟨rev, body, hlive, hstores⟩ := hk.live_of_current hcurrent
      rw [hlive, Option.bind_some, hstores.revision_eq]
      rfl
  · intro hrev
    cases hbase : h.base with
    | none =>
      rw [hbase] at hrev
      cases hlive : history.live? with
      | none => exact (current_eq_none hlive).symm
      | some v =>
        rw [hlive] at hrev
        cases hrev
    | some e =>
      obtain ⟨rev, body, hmem, hstores⟩ := hs.stored e hbase
      rw [hbase, Option.bind_some, hstores.revision_eq] at hrev
      obtain ⟨⟨liveRev, liveBody⟩, hlive, hfst⟩ := Option.map_eq_some_iff.1 hrev.symm
      -- One revision, hence one version: it is live, and it stores the entity.
      have hsame := hk.eq_of_rev (History.mem_of_live? hlive) hmem hfst
      obtain ⟨rfl, hbodies⟩ := Version.mk.inj hsame
      obtain rfl := Option.some.inj hbodies
      exact (current_eq_some hlive hstores).symm

variable (S history) in
/-- A read is for the document, and gives the entity that is there now exactly if that can be read: else the class has
the name of a member of the server's that is no text, and the reply has the wrong shape. -/
def Reads (call : Call (Option α)) : Prop :=
  ∃ r, call.request? = some r ∧ S.IsFor r ∧
    ∀ reply history', Serves S.shelf history r reply history' → history' = history
      ∧ (S.Legible history → call.result reply.answer = .ok (S.current history))
      ∧ (¬S.Legible history → ∃ fault, call.result reply.answer = .error (.serialization fault))

variable (S history) in
/-- A write is for the document, and goes through exactly where it starts from the entity that is there now: then it has
a revision that was never given before, and what it leaves is there. Else it is refused with a conflict, and nothing
changes. -/
def Writes (base : Option α) (left : Revision → Option α) (call : Call (Option α)) : Prop :=
  ∃ r, call.request? = some r ∧ S.IsFor r ∧
    ∀ reply history', Serves S.shelf history r reply history' →
      (base = S.current history ∧ ∃ rev body, history.Fresh rev ∧ history' = ⟨rev, body⟩ :: history ∧ S.Kept history'
          ∧ S.current history' = left rev ∧ call.result reply.answer = .ok (left rev))
        ∨ (base ≠ S.current history ∧ history' = history ∧ Refused (call.result reply.answer))

variable (S history) in
/-- What becomes of a call that is served now. -/
def Fulfils : Act α → Call (Option α) → Prop
  | .get, call => S.Reads history call
  | .insert ⟨none, e⟩, call => S.Writes history none (fun rev => some (S.type.withRevision e rev)) call
  | .insert ⟨some _, _⟩, call => call = .done (.error (.misuse (.insertWithRevision S.id)))
  | .update ⟨some base, e⟩, call => S.Writes history (some base) (fun rev => some (S.type.withRevision e rev)) call
  | .update ⟨none, _⟩, call => call = .done (.error (.misuse (.updateWithoutRevision S.id)))
  | .delete ⟨some base, _⟩ _, call => S.Writes history (some base) (fun _ => none) call
  | .delete ⟨none, _⟩ _, call => call = .done (.error (.misuse (.deleteOfUnsaved S.id)))

/-- An entity that may be held is written exactly where it is made of the entity that is there now. -/
theorem writes_put (hk : S.Kept history) (hs : S.Sound history h) :
    S.Writes history h.base (fun rev => some (S.type.withRevision h.now rev))
      ((S.put h.now).andThen fun written => .ok written.entity) := by
  obtain ⟨r, hr, hfor, hserved⟩ := served_put hs.valid hs.id_eq
  refine ⟨r, by rw [Call.request?_andThen, hr], hfor, fun reply history' hserve => ?_⟩
  rw [Call.result_andThen]
  rcases hserved hserve with ⟨hrev, rev, hfresh, rfl, hresult⟩ | ⟨hrev, rfl, told, hresult⟩
  · have hstores := (stores_wrapped hs.valid hs.id_eq).atRevision rev
    have hlive : History.live? (⟨rev, some (S.body h.now)⟩ :: history) = some (rev, S.body h.now) := rfl
    obtain ⟨written, hwritten, hentity⟩ := Outcome.map_eq_ok.1 hresult
    refine .inl ⟨(hs.base_eq_current_iff hk).2 hrev, rev, _, hfresh, rfl, ?_, current_eq_some hlive hstores, ?_⟩
    · refine hk.cons hfresh fun b hb => ⟨S.type.withRevision h.now rev, ?_⟩
      obtain rfl := Option.some.inj hb
      exact hstores
    · rw [hwritten]
      exact congrArg Except.ok hentity
  · refine .inr ⟨fun hbase => hrev ((hs.base_eq_current_iff hk).1 hbase), rfl, told, ?_⟩
    rw [hresult]
    rfl

/-- An entity that was stored is deleted exactly where it is made of the entity that is there now. -/
theorem writes_delete (hk : S.Kept history) (hs : S.Sound history h) {base : α} (hbase : h.base = some base)
    {named : Revision} (hnamed : S.type.revision h.now = some named) (batch : Bool) :
    S.Writes history (some base) (fun _ => none)
      ((S.client.deleteDocument S.path named batch).andThen fun _ => .ok none) := by
  obtain ⟨r, hr, hfor, hserved⟩ := S.served_delete named batch
  refine ⟨r, by rw [Call.request?_andThen, hr], hfor, fun reply history' hserve => ?_⟩
  have hcurrent := hs.base_eq_current_iff hk
  rw [hbase, hnamed] at hcurrent
  rw [Call.result_andThen]
  rcases hserved hserve with ⟨hlive, rev, hfresh, rfl, told, hresult⟩ | ⟨hlive, rfl, told, hresult⟩
  · refine .inl ⟨hcurrent.2 hlive.symm, rev, none, hfresh, rfl, ?_, current_eq_none rfl, ?_⟩
    · exact hk.cons hfresh fun b hb => absurd hb (by simp)
    · rw [hresult]
      rfl
  · refine .inr ⟨fun h' => hlive (hcurrent.1 h').symm, rfl, told, ?_⟩
    rw [hresult]
    rfl

/-- What was stored has the revision of a version, which means something. -/
theorem Sound.exists_revision (hk : S.Kept history) (hs : S.Sound history h) {base : α} (hbase : h.base = some base) :
    ∃ rev, S.type.revision h.now = some rev ∧ rev.isBlank = false := by
  obtain ⟨rev, body, hmem, hstores⟩ := hs.stored base hbase
  refine ⟨rev, ?_, hk.meaningful _ hmem⟩
  rw [hs.revision_eq, hbase, Option.bind_some, hstores.revision_eq]

/-- **Every call that a client makes with what it may hold comes to what it should.** -/
theorem fulfils_call (hk : S.Kept history) {act : Act α} (hs : ∀ h, act.holding? = some h → S.Sound history h)
    {routes : Routes} (hroutes : S.Routed routes) : S.Fulfils history act (act.call S routes) := by
  cases act with
  | get =>
    obtain ⟨r, hr, hfor, hserved⟩ := S.served_get
    rw [Act.call, get_eq hroutes]
    exact ⟨r, hr, hfor, fun reply history' hserve => hserved hk hserve⟩
  | insert held =>
    have hheld := hs held rfl
    obtain ⟨base, e⟩ := held
    rw [Act.call, insert_eq hroutes hheld.valid hheld.id_eq]
    cases base with
    | none =>
      have hnew : S.type.revision e = none := hheld.revision_eq
      rw [hnew, Option.isSome_none, if_neg Bool.false_ne_true]
      exact writes_put hk hheld
    | some base =>
      obtain ⟨rev, hrev, -⟩ := hheld.exists_revision hk rfl
      rw [hrev, Option.isSome_some, if_pos rfl]
      rfl
  | update held =>
    have hheld := hs held rfl
    obtain ⟨base, e⟩ := held
    rw [Act.call, update_eq hroutes hheld.valid hheld.id_eq]
    cases base with
    | none =>
      have hnew : S.type.revision e = none := hheld.revision_eq
      rw [hnew, Option.all_none, if_pos rfl]
      rfl
    | some base =>
      obtain ⟨rev, hrev, hmeans⟩ := hheld.exists_revision hk rfl
      rw [hrev, Option.all_some, hmeans, if_neg Bool.false_ne_true]
      exact writes_put hk hheld
  | delete held batch =>
    have hheld := hs held rfl
    obtain ⟨base, e⟩ := held
    cases base with
    | none =>
      rw [Act.call, deleteEntity_of_none hheld.id_eq hheld.revision_eq]
      rfl
    | some base =>
      obtain ⟨rev, hrev, hmeans⟩ := hheld.exists_revision hk rfl
      rw [Act.call, deleteEntity_of_some hroutes hheld.id_eq hrev hmeans]
      exact writes_delete hk hheld rfl hrev batch

variable {call : Call (Option α)} {r : Request} {reply : Reply} {history' : History}

/-- A call that sends nothing fails. -/
theorem Fulfils.error_of_done {act : Act α} {outcome : Outcome (Option α)} (hf : S.Fulfils history act call)
    (hdone : call = .done outcome) : ∃ e, outcome = .error e := by
  subst hdone
  match act, hf with
  | .get, ⟨r, hr, _⟩ => cases hr
  | .insert ⟨none, _⟩, ⟨r, hr, _⟩ => cases hr
  | .insert ⟨some _, _⟩, h => exact ⟨_, Call.done.inj h⟩
  | .update ⟨some _, _⟩, ⟨r, hr, _⟩ => cases hr
  | .update ⟨none, _⟩, h => exact ⟨_, Call.done.inj h⟩
  | .delete ⟨some _, _⟩ _, ⟨r, hr, _⟩ => cases hr
  | .delete ⟨none, _⟩ _, h => exact ⟨_, Call.done.inj h⟩

variable (S history history') in
/-- What a served call leaves: versions such as clients keep, all that were there among them; a result, if it succeeds,
that is there now; and an entry more in the line of the writes, if it is a write and succeeds. -/
structure Continues (act : Act α) (outcome : Outcome (Option α)) : Prop where
  kept : S.Kept history'
  mono : ∀ v ∈ history, v ∈ history'
  result : ∀ found, outcome = .ok found → found = S.current history'
  line : ∀ first log, Line first log (S.current history) →
    Line first (act.entry outcome ++ log) (S.current history')

theorem Reads.continues (hk : S.Kept history) (hf : S.Reads history call) (hr : call.request? = some r)
    (hserve : Serves S.shelf history r reply history') :
    S.Continues history history' .get (call.result reply.answer) := by
  obtain ⟨sent, hsent, -, hserved⟩ := hf
  obtain rfl := Option.some.inj (hsent.symm.trans hr)
  obtain ⟨rfl, hlegible, hillegible⟩ := hserved reply history' hserve
  refine ⟨hk, fun v hv => hv, fun found hfound => ?_, fun first log h => h⟩
  by_cases hc : S.Legible history'
  · exact (Except.ok.inj ((hlegible hc).symm.trans hfound)).symm
  · obtain ⟨fault, hfault⟩ := hillegible hc
    cases hfault.symm.trans hfound

theorem Writes.continues {act : Act α} (hact : act.holding? = some h) {left : Revision → Option α}
    (hk : S.Kept history) (hf : S.Writes history h.base left call) (hr : call.request? = some r)
    (hserve : Serves S.shelf history r reply history') :
    S.Continues history history' act (call.result reply.answer) := by
  obtain ⟨sent, hsent, -, hserved⟩ := hf
  obtain rfl := Option.some.inj (hsent.symm.trans hr)
  rcases hserved reply history' hserve with
    ⟨hbase, rev, body, -, rfl, hkept, hcurrent, hresult⟩ | ⟨-, rfl, told, hresult⟩
  · rw [hresult]
    refine ⟨hkept, fun v hv => List.mem_cons_of_mem _ hv, fun found hfound => ?_, fun first log hline => ?_⟩
    · rw [← Except.ok.inj hfound, hcurrent]
    · rw [Act.entry_ok hact, hcurrent]
      exact ⟨rfl, hbase ▸ hline⟩
  · rw [hresult]
    refine ⟨hk, fun v hv => hv, fun found hfound => ?_, fun first log hline => ?_⟩
    · cases hfound
    · rw [Act.entry_error]
      exact hline

/-- A call that comes to what it should leaves what it should. -/
theorem Fulfils.continues {act : Act α} (hk : S.Kept history) (hf : S.Fulfils history act call)
    (hr : call.request? = some r) (hserve : Serves S.shelf history r reply history') :
    S.Continues history history' act (call.result reply.answer) := by
  match act, hf with
  | .get, hf => exact Reads.continues hk hf hr hserve
  | .insert ⟨none, _⟩, hf => exact Writes.continues rfl hk hf hr hserve
  | .insert ⟨some _, _⟩, hf => rw [hf] at hr; cases hr
  | .update ⟨some _, _⟩, hf => exact Writes.continues rfl hk hf hr hserve
  | .update ⟨none, _⟩, hf => rw [hf] at hr; cases hr
  | .delete ⟨some _, _⟩ _, hf => exact Writes.continues rfl hk hf hr hserve
  | .delete ⟨none, _⟩ _, hf => rw [hf] at hr; cases hr

end Site

end DocClient
