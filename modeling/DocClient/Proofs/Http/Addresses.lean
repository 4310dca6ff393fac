/-
# Which names a request is for

A server takes the place of a request apart at its slashes. A request is for a name in a database, the name of a document
or of an operation, if its place is that of the base URL with two segments behind it that stand for the two names
(`Request.Addresses`). The requests of a client are (`Client.addresses_iff`), but for the names `.` and `..`: no segment
can be made of these (`IsSegmentName`), since URLs have another use for them.

| the database | the name | segments behind those of the base URL |
| --- | --- | --- |
| any other | any other | the two names |
| any other | `.` | the database, and an empty one |
| any other | `..` | an empty one |
| `.` | any other | the name |
| `..` | any other | the name, in place of the last one of the base URL |
-/

import DocClient.Proofs.Http.Location

namespace DocClient

/-- A request is for a name in a database: its place has the segments of a base URL and then one for the database and one
for the name. -/
def Request.Addresses (r : Request) (base : List (List Char)) (db id : String) : Prop :=
  ∃ d i, r.segments = base ++ [d, i] ∧ Percent.decode d = Text.encode db.toList
    ∧ Percent.decode i = Text.encode id.toList

/-- **One place is for one name in one database.** -/
theorem Request.Addresses.unique {r r' : Request} {base : List (List Char)} {db id db' id' : String}
    (h : r.Addresses base db id) (h' : r'.Addresses base db' id') (hplace : r.place = r'.place) :
    db = db' ∧ id = id' := by
  obtain ⟨d, i, hsegments, hd, hi⟩ := h
  obtain ⟨d', i', hsegments', hd', hi'⟩ := h'
  have heq : base ++ [d, i] = base ++ [d', i'] := by
    rw [← hsegments, ← hsegments', Request.segments, Request.segments, hplace]
  obtain ⟨rfl, hlast⟩ := List.cons.inj (List.append_cancel_left heq)
  obtain rfl := List.singleton_inj.1 hlast
  exact ⟨Text.encode_inj (hd.symm.trans hd'), Text.encode_inj (hi.symm.trans hi')⟩

/-- A name that a segment can be made of. -/
def IsSegmentName (name : String) : Prop := name ≠ "." ∧ name ≠ ".."

namespace Url

variable {path : List (List Char)}

theorem length_pushSegment_le (segment : List Char) (last : Bool) :
    (pushSegment path segment last).length ≤ path.length + 1 := by
  rw [pushSegment]
  repeat' split
  all_goals simp <;> omega

/-- Dots add no segment where another name follows. -/
theorem length_pushSegment_dots_le {name : String} (h : ¬IsSegmentName name) :
    (pushSegment path (Percent.segment name) false).length ≤ path.length := by
  rcases not_and_or.1 h with h | h
  · rw [not_not.1 h, pushSegment_dot]
    exact Nat.le_refl _
  · rw [not_not.1 h, pushSegment_dots]
    simp

/-- **Two names are read off the end of a path** exactly if a segment can be made of either. -/
theorem pushSegments_names_iff (path : List (List Char)) (db id : String) :
    (∃ d i, pushSegments path [Percent.segment db, Percent.segment id] = i :: d :: path
        ∧ Percent.decode d = Text.encode db.toList ∧ Percent.decode i = Text.encode id.toList)
      ↔ IsSegmentName db ∧ IsSegmentName id := by
  have htwo : pushSegments path [Percent.segment db, Percent.segment id]
      = pushSegment (pushSegment path (Percent.segment db) false) (Percent.segment id) true := rfl
  rw [htwo]
  constructor
  · rintro ⟨d, i, hpath, -, hi⟩
    have hlength := congrArg List.length hpath
    simp only [List.length_cons] at hlength
    have hdb : IsSegmentName db := by
      by_contra hdots
      have hfirst : (pushSegment path (Percent.segment db) false).length ≤ path.length :=
        length_pushSegment_dots_le hdots
      have hlast : (pushSegment (pushSegment path (Percent.segment db) false) (Percent.segment id) true).length
          ≤ (pushSegment path (Percent.segment db) false).length + 1 := length_pushSegment_le _ _
      omega
    refine ⟨hdb, ?_, ?_⟩
    · rintro rfl
      rw [pushSegment_dot] at hpath
      obtain ⟨rfl, -⟩ := List.cons.inj hpath
      exact absurd hi (by decide)
    · rintro rfl
      rw [pushSegment_of_ne hdb.1 hdb.2, pushSegment_dots] at hlength
      simp at hlength
  · rintro ⟨hdb, hid⟩
    refine ⟨Percent.segment db, Percent.segment id, ?_, Percent.decode_segment db, Percent.decode_segment id⟩
    rw [pushSegment_of_ne hdb.1 hdb.2, pushSegment_of_ne hid.1 hid.2]

end Url

/-- The base URL of a client is one of a server: absolute, and without query and fragment. -/
structure Client.HasPlainBase (c : Client) : Prop where
  absolute : (Url.parse? c.settings.baseUrl.toList).isSome
  query : '?' ∉ c.settings.baseUrl.toList
  fragment : '#' ∉ c.settings.baseUrl.toList

/-- **What is sent for two names is for the second in the first** exactly if a segment can be made of either name. -/
theorem Client.addresses_iff {c : Client} (hplain : c.HasPlainBase) {db id : String} {method : Method}
    {options : Option (List (String × String))} {body : Option Json} {r : Request}
    (h : c.request? method [db, id] options body = some r) :
    r.Addresses c.leadingPath db id ↔ IsSegmentName db ∧ IsSegmentName id := by
  have hsegments := Client.segments_of_request? hplain.absolute hplain.query hplain.fragment (by simp) h
  rw [← Url.pushSegments_names_iff c.leadingPath.reverse]
  refine exists_congr fun database => exists_congr fun name => and_congr_left fun _ => ?_
  rw [hsegments, List.reverse_eq_iff]
  simp

/-- A request of a client is for a name in a database, exactly if a segment can be made of either name; and the segments
before the two are those of the base URL itself, if that ends in what counts. -/
structure Request.IsFor (r : Request) (c : Client) (db name : String) : Prop where
  addressed : c.HasPlainBase → (r.Addresses c.leadingPath db name ↔ IsSegmentName db ∧ IsSegmentName name)
  based : c.HasPlainBase → Url.EndsPlainly c.settings.server.toList → c.leadingPath = c.basePath

/-- What a client sends for two names is for these. -/
theorem Client.isFor_of_request? {c : Client} {db name : String} {method : Method}
    {options : Option (List (String × String))} {body : Option Json} {r : Request}
    (h : c.request? method [db, name] options body = some r) : r.IsFor c db name where
  addressed hplain := addresses_iff hplain h
  based hplain hends := leadingPath_eq_basePath hplain.absolute hplain.query hplain.fragment hends

end DocClient
