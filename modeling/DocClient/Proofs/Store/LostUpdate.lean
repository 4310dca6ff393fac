/-
# No update is lost

Of the clients that share a document (`Sharing`), whatever they do in whatever order, it holds at every time that a call
served now comes to what it should (`Site.Fulfils`): a write goes through exactly where it starts from the entity that
is there. Hence the writes that succeeded follow one another (`Line`): each started from what the one before it left.

The invariant (`Sharing.Inv`) is that the versions are such as clients keep, and that everything held, under way or
come back was made of an entity that some version stores.
-/

import DocClient.Proofs.Store.Served

namespace DocClient
namespace Sharing

variable {α : Type} {S : Site α} {first : History} {s s' : Sharing α}

variable (S first) in
/-- What holds of the document and its clients at every time. -/
structure Inv (s : Sharing α) : Prop where
  kept : S.Kept s.history
  held : ∀ client, ∀ h ∈ s.held client, S.Sound s.history h
  sent : ∀ p ∈ s.sent, (∀ h, p.act.holding? = some h → S.Sound s.history h)
    ∧ ∃ routes, S.Routed routes ∧ p.call = p.act.call S routes
  results : ∀ client e, (client, .ok (some e)) ∈ s.results → S.Sound s.history ⟨some e, e⟩
  line : Line (S.current first) s.log (S.current s.history)

theorem inv_start (hfirst : S.Kept first) : Inv S first { history := first } where
  kept := hfirst
  held _ _ h := absurd h List.not_mem_nil
  sent _ h := absurd h List.not_mem_nil
  results _ _ h := absurd h List.not_mem_nil
  line := rfl

/-- A client may hold an entity more. -/
theorem Inv.hold (hi : Inv S first s) {h : Holding α} (hs : S.Sound s.history h) (client : Nat) :
    Inv S first (s.hold client h) where
  kept := hi.kept
  held i h' hmem := by
    rw [Sharing.hold] at hmem
    dsimp only at hmem
    split at hmem
    · rcases List.mem_cons.1 hmem with rfl | hmem
      · exact hs
      · exact hi.held i h' hmem
    · exact hi.held i h' hmem
  sent := hi.sent
  results := hi.results
  line := hi.line

/-- A call may end as it should. -/
theorem Inv.finish (hi : Inv S first s) {p : Sent α} {outcome : Outcome (Option α)} {history : History}
    (hc : S.Continues s.history history p.act outcome) {others : List (Sent α)} (hothers : ∀ q ∈ others, q ∈ s.sent) :
    Inv S first (s.finish p outcome history others) where
  kept := hc.kept
  held i h hmem := (hi.held i h hmem).mono hc.mono
  sent q hq := by
    obtain ⟨hheld, hcall⟩ := hi.sent q (hothers q hq)
    exact ⟨fun h hh => (hheld h hh).mono hc.mono, hcall⟩
  results client e hmem := by
    rcases List.mem_cons.1 hmem with heq | hmem
    · exact hc.kept.sound_current (hc.result _ (Prod.mk.inj heq).2.symm).symm
    · exact (hi.results client e hmem).mono hc.mono
  line := hc.line _ _ hi.line

/-- What becomes of a call under way. -/
theorem Inv.fulfils (hi : Inv S first s) {p : Sent α} (hp : p ∈ s.sent) : S.Fulfils s.history p.act p.call := by
  obtain ⟨hheld, routes, hroutes, hcall⟩ := hi.sent p hp
  rw [hcall]
  exact Site.fulfils_call hi.kept hheld hroutes

/-- **Whatever happens, the invariant is kept.** -/
theorem inv_step (hi : Inv S first s) (hstep : Step S s s') : Inv S first s' := by
  have hothers : ∀ {before after : List (Sent α)} {p : Sent α}, s.sent = before ++ p :: after →
      p ∈ s.sent ∧ ∀ q ∈ before ++ after, q ∈ s.sent := by
    intro before after p hsent
    rw [hsent]
    exact ⟨List.mem_append_cons_self, fun q hq => by
      rcases List.mem_append.1 hq with hq | hq
      · exact List.mem_append_left _ hq
      · exact List.mem_append_right _ (List.mem_cons_of_mem _ hq)⟩
  cases hstep with
  | make client valid id new =>
    exact hi.hold ⟨valid, id, new, fun e he => absurd he (by simp)⟩ client
  | @edit client h e held valid id same =>
    have hs := hi.held client h held
    have hedited : S.Sound s.history ⟨h.base, e⟩ := ⟨valid, id, same.trans hs.revision_eq, hs.stored⟩
    exact hi.hold hedited client
  | send client routed held =>
    refine ⟨hi.kept, hi.held, List.forall_mem_cons.2 ⟨⟨fun h hh => ?_, _, routed, rfl⟩, hi.sent⟩, hi.results, hi.line⟩
    exact hi.held client h (held h hh)
  | refuse sent done =>
    obtain ⟨hp, hrest⟩ := hothers sent
    obtain ⟨e, rfl⟩ := (hi.fulfils hp).error_of_done done
    refine hi.finish ⟨hi.kept, fun v hv => hv, fun found hfound => ?_, fun first log hline => ?_⟩ hrest
    · cases hfound
    · rw [Act.entry_error]
      exact hline
  | serve sent request serves =>
    obtain ⟨hp, hrest⟩ := hothers sent
    exact hi.finish ((hi.fulfils hp).continues hi.kept request serves) hrest
  | receive result => exact hi.hold (hi.results _ _ result) _

theorem inv_of_reachable (hfirst : S.Kept first) (h : Reachable S first s) : Inv S first s := by
  induction h with
  | start => exact inv_start hfirst
  | step before next ih => exact inv_step ih next

theorem mem_held_hold (s : Sharing α) (client : Nat) (h : Holding α) : h ∈ (s.hold client h).held client := by
  simp [hold]

/-- A client may make a call from its start to its end while no other is under way. -/
theorem Reachable.served (h : Reachable S first s) (hsent : s.sent = []) (client : Nat) {act : Act α} {routes : Routes}
    (routed : S.Routed routes) (held : ∀ h, act.holding? = some h → h ∈ s.held client) {r : Request} {reply : Reply}
    {history : History} (request : (act.call S routes).request? = some r)
    (serves : Serves S.shelf s.history r reply history) :
    Reachable S first
      (s.finish ⟨client, act, act.call S routes⟩ ((act.call S routes).result reply.answer) history []) := by
  have hsplit : (⟨client, act, act.call S routes⟩ :: s.sent : List (Sent α)) = [] ++ ⟨client, act, _⟩ :: [] :=
    congrArg _ hsent
  have hserve := Step.serve { s with sent := ⟨client, act, act.call S routes⟩ :: s.sent } hsplit request serves
  exact (h.step (.send s client routed held)).step hserve

section Alone

variable {routes : Routes} (routed : S.Routed routes) (plain : S.client.HasPlainBase)
  (names : IsSegmentName S.route.database.text ∧ IsSegmentName S.id.text)

include routed plain names

/-- A client makes the document where there is none. -/
theorem exists_inserted {e : α} (valid : S.Valid e) (id : S.type.id e = S.id) (new : S.type.revision e = none)
    {rev : Revision} (means : rev.isBlank = false) {text : String} (told : Acknowledges text S.id rev) :
    ∃ s, Reachable S [] s ∧ s.history = [⟨rev, some (S.body e)⟩] ∧ s.sent = []
      ∧ s.results = [(0, .ok (some (S.type.withRevision e rev)))]
      ∧ ⟨some (S.type.withRevision e rev), S.type.withRevision e rev⟩ ∈ s.held 0 := by
  have hmade : Reachable S [] (({ history := [] } : Sharing α).hold 0 ⟨none, e⟩) :=
    Reachable.start.step (.make _ 0 valid id new)
  obtain ⟨r, hsend, hmethod, hbody, hfor⟩ := S.put_eq_send e
  have hcall : (Act.insert ⟨none, e⟩).call S routes = (S.put e).andThen fun written => .ok written.entity := by
    rw [Act.call, Site.insert_eq routed valid id, new, Option.isSome_none, if_neg Bool.false_ne_true]
  have hagrees : (S.body e).get? "_rev" = none := by
    rw [Site.get?_rev_body valid id, new]
    rfl
  have hfresh : History.Fresh [] rev := ⟨means, fun v hv => absurd hv List.not_mem_nil⟩
  have hresult : ((Act.insert ⟨none, e⟩).call S routes).result (⟨201, text⟩ : Reply).answer
      = .ok (some (S.type.withRevision e rev)) := by
    rw [hcall, Call.result_andThen, hsend, Call.result_send, writeReply_of_acknowledges (by decide) told]
    rfl
  have hrequest : ((Act.insert ⟨none, e⟩).call S routes).request? = some r := by
    rw [hcall, Call.request?_andThen, hsend, Call.request?]
  have hheld : ∀ h, (Act.insert ⟨none, e⟩).holding? = some h →
      h ∈ ((({ history := [] } : Sharing α).hold 0 ⟨none, e⟩)).held 0 := by
    intro h hh
    obtain rfl := Option.some.inj hh
    exact mem_held_hold ..
  have hserves : Serves S.shelf [] r ⟨201, text⟩ [⟨rev, some (S.body e)⟩] :=
    ⟨hfor.addresses plain names, .written hmethod hbody hagrees hfresh told⟩
  have hserved := hmade.served rfl 0 routed hheld hrequest hserves
  rw [hresult] at hserved
  exact ⟨_, hserved.step (.receive _ (List.mem_cons_self ..)), rfl, rfl, rfl, mem_held_hold ..⟩

/-- A client reads the document that is there, told by some text. -/
theorem Reachable.read (h : Reachable S first s) (hfirst : S.Kept first) (hsent : s.sent = []) {rev : Revision}
    {body : Object} (live : s.history.live? = some (rev, body)) {text : String}
    (told : Reader.ofText Reader.object text.toList = .ok (History.document rev body)) (client : Nat) :
    ∃ outcome, Reachable S first (s.finish ⟨client, .get, Act.get.call S routes⟩ outcome s.history [])
      ∧ (S.Legible s.history → outcome = .ok (S.current s.history))
      ∧ (¬S.Legible s.history → ∃ fault, outcome = .error (.serialization fault)) := by
  obtain ⟨r, hsend, hmethod, hfor⟩ := S.readDocument_eq_send
  have hcall : Act.get.call S routes = S.read := Site.get_eq routed
  have hrequest : S.read.request? = some r := by
    rw [Site.read, Call.request?_andThen, Call.request?_andThen, hsend]
    rfl
  have hserves : Serves S.shelf s.history r ⟨200, text⟩ s.history :=
    ⟨hfor.addresses plain names, .found hmethod live told⟩
  obtain ⟨r', hr', -, hget⟩ := S.served_get
  obtain rfl := Option.some.inj (hr'.symm.trans hrequest)
  obtain ⟨-, hlegible, hillegible⟩ := hget (inv_of_reachable hfirst h).kept hserves
  rw [← hcall] at hlegible hillegible
  exact ⟨_, h.served hsent client routed (fun _ hh => by cases hh) (hcall ▸ hrequest) hserves, hlegible, hillegible⟩

end Alone

/-- **No update is lost:** whatever the clients did in whatever order, a call that is served now comes to what it should
(`Site.Fulfils`), and the writes that succeeded follow one another, the last of them leaving what is there now. -/
theorem no_update_lost (S : Site α) {first : History} (hfirst : S.Kept first) {s : Sharing α}
    (h : Reachable S first s) :
    (∀ p ∈ s.sent, S.Fulfils s.history p.act p.call) ∧ Line (S.current first) s.log (S.current s.history) :=
  have hi := inv_of_reachable hfirst h
  ⟨fun _ hp => hi.fulfils hp, hi.line⟩

/-- Clients with a class field that work on the document `a` as an entity with a title. -/
def titledSite (client : Client) (free : client.settings.classField ≠ "_id" ∧ client.settings.classField ≠ "_rev"
      ∧ client.settings.classField ∉ EntityKind.other.fields)
    (located : (Url.parse? (client.locate ["db", "a"])).isSome) : Site StockEntity :=
  .ofKind client .other ⟨⟨"db"⟩, ⟨"Other"⟩⟩ ⟨"a"⟩ (by decide) free located

/-- Clients of the standard settings. -/
def sample : Site StockEntity := titledSite .sample (by decide) (by decide +kernel)

/-- Clients that keep the class of a document where the server marks deletions. -/
def disguised : Site StockEntity :=
  titledSite ⟨{ Settings.standard with classField := "_deleted" }, by decide⟩ (by decide) (by decide +kernel)

/-- The routes of these clients. -/
def sampleRoutes : Routes := { naming := .perType, settled := [("OtherEntity", ⟨⟨"db"⟩, ⟨"Other"⟩⟩)] }

/-- The entity with a title, at a revision if it was stored. -/
def titled (title : String) (revision : Option Revision) : StockEntity := .other ⟨⟨"a"⟩, revision, title⟩

/-- The entity that the first write leaves, as a client holds it. -/
def firstHolding : Holding StockEntity := ⟨some (titled "t" (some ⟨"1-x"⟩)), titled "t" (some ⟨"1-x"⟩)⟩

theorem acknowledges_first : Acknowledges "\x7b\"ok\":true,\"id\":\"a\",\"rev\":\"1-x\"\x7d" ⟨"a"⟩ ⟨"1-x"⟩ :=
  ⟨_, rfl, .refl _⟩

theorem plain_sample : sample.client.HasPlainBase := ⟨by decide +kernel, by decide +kernel, by decide +kernel⟩

theorem names_sample : IsSegmentName "db" ∧ IsSegmentName "a" := ⟨⟨by decide, by decide⟩, ⟨by decide, by decide⟩⟩

/-- The entity that the first write left, with another title. -/
def edited : Holding StockEntity := ⟨firstHolding.base, titled "u" (some ⟨"1-x"⟩)⟩

/-- One client makes the document and another reads it; then the one is about to write it and the other to delete it,
both having what the first write left. -/
theorem no_update_lost_sample : ∃ s, Reachable sample [] s
    ∧ s.sent.map Sent.act = [.delete firstHolding false, .update edited]
    ∧ (∀ p ∈ s.sent, sample.Fulfils s.history p.act p.call)
    ∧ Line (sample.current []) s.log (sample.current s.history) := by
  have hrouted : sample.Routed sampleRoutes := ⟨sampleRoutes, by decide +kernel⟩
  have hvalid : ∀ title revision, sample.Valid (titled title revision) := fun _ _ => ⟨rfl, trivial⟩
  obtain ⟨s, hs, hhistory, hsent, -, hheld⟩ := exists_inserted hrouted plain_sample names_sample (hvalid "t" none) rfl
    rfl (by decide) acknowledges_first
  have hlive : s.history.live? = some (⟨"1-x"⟩, sample.body (titled "t" none)) := by
    rw [hhistory]
    rfl
  have hcurrent : sample.current s.history = some (titled "t" (some ⟨"1-x"⟩)) :=
    Site.current_eq_some hlive ((Site.stores_wrapped (hvalid "t" none) rfl).atRevision ⟨"1-x"⟩)
  have htold : Reader.ofText Reader.object
      "\x7b\"title\":\"t\",\"class__\":\"Other\",\"_id\":\"a\",\"_rev\":\"1-x\"\x7d".toList
        = .ok (History.document ⟨"1-x"⟩ (sample.body (titled "t" none))) := by
    decide +kernel
  obtain ⟨_, hread, hlegible, -⟩ := hs.read hrouted plain_sample names_sample Site.kept_nil hsent hlive htold 1
  rw [hlegible (.inr (by decide)), hcurrent] at hread
  obtain ⟨s, hs, hsent, hwriter, hdeleter⟩ : ∃ s, Reachable sample [] s ∧ s.sent = [] ∧ firstHolding ∈ s.held 0
      ∧ firstHolding ∈ s.held 1 :=
    ⟨_, hread.step (.receive _ (List.mem_cons_self ..)), rfl, hheld, mem_held_hold _ 1 firstHolding⟩
  have hedited : Reachable sample [] (s.hold 0 edited) := hs.step (.edit s 0 hwriter (hvalid ..) rfl rfl)
  have hupdate : ∀ h, (Act.update edited).holding? = some h → h ∈ (s.hold 0 edited).held 0 := by
    intro h hh
    obtain rfl := Option.some.inj hh
    exact mem_held_hold ..
  have hdelete : ∀ h, (Act.delete firstHolding false).holding? = some h → h ∈ (s.hold 0 edited).held 1 := by
    intro h hh
    obtain rfl := Option.some.inj hh
    exact hdeleter
  have hboth := (hedited.step (.send _ 0 hrouted hupdate)).step (.send _ 1 hrouted hdelete)
  exact ⟨_, hboth, congrArg (fun sent => _ :: _ :: List.map Sent.act sent) hsent,
    no_update_lost sample Site.kept_nil hboth⟩

/-- **An entity that was inserted may never be read:** where its class stands under `_deleted`, the insertion succeeds
and every read of what it left fails. -/
theorem unread_disguised : ∃ s fault, Reachable disguised [] s
    ∧ disguised.current s.history = some (titled "t" (some ⟨"1-x"⟩))
    ∧ s.results = [(1, .error (.serialization fault)), (0, .ok (some (titled "t" (some ⟨"1-x"⟩))))] := by
  have hrouted : disguised.Routed sampleRoutes := ⟨sampleRoutes, by decide +kernel⟩
  have hvalid : disguised.Valid (titled "t" none) := ⟨rfl, trivial⟩
  have hplain : disguised.client.HasPlainBase := ⟨by decide +kernel, by decide +kernel, by decide +kernel⟩
  obtain ⟨s, hs, hhistory, hsent, hresults, -⟩ := exists_inserted hrouted hplain names_sample hvalid rfl rfl (by decide)
    acknowledges_first
  have hlive : s.history.live? = some (⟨"1-x"⟩, disguised.body (titled "t" none)) := by
    rw [hhistory]
    rfl
  have htold : Reader.ofText Reader.object
      "\x7b\"_id\":\"a\",\"_rev\":\"1-x\",\"_deleted\":\"Other\",\"title\":\"t\"\x7d".toList
        = .ok (History.document ⟨"1-x"⟩ (disguised.body (titled "t" none))) := by
    decide +kernel
  obtain ⟨_, hread, -, hillegible⟩ := hs.read hrouted hplain names_sample Site.kept_nil hsent hlive htold 1
  obtain ⟨fault, rfl⟩ := hillegible (by rw [Site.Legible, hlive]; decide)
  exact ⟨_, fault, hread, Site.current_eq_some hlive ((Site.stores_wrapped hvalid rfl).atRevision ⟨"1-x"⟩),
    congrArg _ hresults⟩

end Sharing
end DocClient
