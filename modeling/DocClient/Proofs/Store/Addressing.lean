/-
# Which document a request is for

A call for a document sends one request, and it is for the document that the call names, but for the two names that no
segment can be made of (`DocumentCall.addresses_of_sent`): then it is for another place, and never for that document.
Requests for different documents are for different places, and none of them is for a database.
-/

import DocClient.Entity.Stock
import DocClient.Proofs.Http.Addresses
import DocClient.Proofs.Store.DocumentCall

namespace DocClient

/-- A request is for a database: its place has the segments of a base URL and then one for the database, be there a
slash behind it or not. -/
def Request.AddressesDatabase (r : Request) (base : List (List Char)) : Prop :=
  ∃ d, r.segments = base ++ [d] ∨ r.segments = base ++ [d, []]

/-- **The place of a document with a name is not that of a database.** -/
theorem Request.Addresses.not_addressesDatabase {r : Request} {base : List (List Char)} {db : String} {id : DocId}
    (h : r.Addresses base db id.text) (hnamed : id.isBlank = false) : ¬r.AddressesDatabase base := by
  obtain ⟨d, i, hsegments, -, hi⟩ := h
  rintro ⟨d', hone | hslash⟩
  · have hlength := congrArg List.length (hsegments.symm.trans hone)
    simp at hlength
  · obtain ⟨-, hlast⟩ := List.cons.inj (List.append_cancel_left (hsegments.symm.trans hslash))
    obtain rfl := List.singleton_inj.1 hlast
    have hempty : "" = id.text := Text.encode_inj hi
    rw [DocId.isBlank, ← hempty] at hnamed
    exact absurd hnamed (by decide)

namespace DocumentCall

variable {α β : Type}

/-- **A call for a document addresses it.** Of a client with an absolute base URL, without query and fragment, a call is
sent exactly if it has something to send and a URL can be made of the base URL with a slash behind it, and then it is
for a document with a name. The request is for that document exactly if a segment can be made of either name. A call
for which that is so is not for a database, and two of them are for one place only if they are for one document. All
these places are below the base URL, if that ends in what counts. -/
theorem addresses_of_sent (c : Client) (hbase : (Url.parse? c.settings.baseUrl.toList).isSome)
    (hquery : '?' ∉ c.settings.baseUrl.toList) (hfragment : '#' ∉ c.settings.baseUrl.toList) (T : EntityType α)
    (routes : Routes) (call : DocumentCall α) :
    ((call.request? c T routes).isSome ↔ (call.errand? c T routes).isSome ∧ (Url.parse? (c.locate [""])).isSome)
      ∧ (Url.EndsPlainly c.settings.server.toList → c.leadingPath = c.basePath)
      ∧ ∀ r, call.request? c T routes = some r → ∃ d, call.errand? c T routes = some d
        ∧ r.method = d.method ∧ d.id.isBlank = false
        ∧ (r.Addresses c.leadingPath d.database.text d.id.text
          ↔ IsSegmentName d.database.text ∧ IsSegmentName d.id.text)
        ∧ ((∀ name ∈ d.path, IsSegmentName name) → ¬r.AddressesDatabase c.leadingPath)
        ∧ ∀ (U : EntityType β) (routes' : Routes) (call' : DocumentCall β) (d' : Errand) (r' : Request),
          call'.errand? c U routes' = some d' → call'.request? c U routes' = some r' →
          (∀ name ∈ d.path ++ d'.path, IsSegmentName name) → r.place = r'.place →
          d.database = d'.database ∧ d.id = d'.id := by
  have haddresses : ∀ {d : Errand} {r : Request}, d.request? c = some r →
      (r.Addresses c.leadingPath d.database.text d.id.text
        ↔ IsSegmentName d.database.text ∧ IsSegmentName d.id.text) :=
    Client.addresses_iff ⟨hbase, hquery, hfragment⟩
  refine ⟨?_, Client.leadingPath_eq_basePath hbase hquery hfragment, fun r hr => ?_⟩
  · rw [request?_eq]
    cases call.errand? c T routes with
    | none => simp
    | some d =>
      rw [Option.bind_some, Errand.request?, Client.isSome_request? hbase hquery hfragment (by simp [Errand.path])]
      simp
  · rw [request?_eq] at hr
    obtain ⟨d, hd, hr⟩ := Option.bind_eq_some_iff.1 hr
    have hnamed := isBlank_of_errand? hd
    refine ⟨d, hd, (Client.request?_eq_some hr).1, hnamed, haddresses hr, fun hnames => ?_, ?_⟩
    · simp only [Errand.path, List.forall_mem_cons] at hnames
      obtain ⟨hdb, hid, -⟩ := hnames
      exact ((haddresses hr).2 ⟨hdb, hid⟩).not_addressesDatabase hnamed
    · intro U routes' call' d' r' hd' hr' hnames hplace
      rw [request?_eq, hd', Option.bind_some] at hr'
      simp only [Errand.path, List.cons_append, List.nil_append, List.forall_mem_cons] at hnames
      obtain ⟨hdb, hid, hdb', hid', -⟩ := hnames
      obtain ⟨hdatabase, hdocument⟩ :=
        ((haddresses hr).2 ⟨hdb, hid⟩).unique ((haddresses hr').2 ⟨hdb', hid'⟩) hplace
      exact ⟨congrArg DatabaseName.mk hdatabase, congrArg DocId.mk hdocument⟩

/-- A name with a slash is a segment of its own. -/
theorem addresses_of_sent_slash : ∃ r,
    (DocumentCall.delete ⟨"db"⟩ ⟨"a/é"⟩ ⟨"1-x"⟩ false).request? .sample EntityKind.test.type .sample = some r
      ∧ r.target = "/db/a%2F%C3%A9?rev=1-x" ∧ r.Addresses Client.sample.basePath "db" "a/é" := by
  obtain ⟨hsent, hbased, haddresses⟩ := addresses_of_sent (β := StockEntity) .sample (by decide +kernel) (by decide +kernel)
    (by decide +kernel) EntityKind.test.type .sample (.delete ⟨"db"⟩ ⟨"a/é"⟩ ⟨"1-x"⟩ false)
  obtain ⟨r, hr⟩ := Option.isSome_iff_exists.1 (hsent.2 ⟨by decide +kernel, by decide +kernel⟩)
  have htarget : ((DocumentCall.delete ⟨"db"⟩ ⟨"a/é"⟩ ⟨"1-x"⟩ false).request? .sample EntityKind.test.type .sample).map
      Request.target = some "/db/a%2F%C3%A9?rev=1-x" := by decide +kernel
  rw [hr] at htarget
  obtain ⟨d, hd, -, -, hiff, -⟩ := haddresses r hr
  obtain rfl : d = .deletion ⟨"db"⟩ ⟨"a/é"⟩ ⟨"1-x"⟩ false := by
    rw [errand?, if_neg (by decide +kernel)] at hd
    exact (Option.some.inj hd).symm
  have hends : Url.EndsPlainly Client.sample.settings.server.toList := by
    intro c hc
    obtain rfl := Option.some.inj ((by decide +kernel : some '4' = _).trans hc)
    decide
  rw [← hbased hends]
  exact ⟨r, hr, Option.some.inj htarget, hiff.2 ⟨⟨by decide, by decide⟩, ⟨by decide, by decide⟩⟩⟩

/-- **A deletion of the document `.` is sent as one of the database**, and a read of the document `..` as one of the
server. -/
theorem target_of_dots :
    ((DocumentCall.delete ⟨"db"⟩ ⟨"."⟩ ⟨"1-x"⟩ false).request? .sample EntityKind.test.type .sample).map
        (fun r => (r.method, r.target)) = some (.delete, "/db/?rev=1-x")
      ∧ ((DocumentCall.get ⟨".."⟩ {}).request? .sample EntityKind.test.type .sample).map
        (fun r => (r.method, r.target)) = some (.get, "/") := by
  exact ⟨by decide +kernel, by decide +kernel⟩

end DocumentCall
end DocClient
