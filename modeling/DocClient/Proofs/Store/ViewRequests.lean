/-
# View requests as they are posted

The body that a view is asked with has a member for each option that is set, and tells any two requests apart
(`ViewRequest.toJson_injective`). Read back it is the request again, but for keys that are null: a request for the rows
of the null key posts it as null, and a null member is read as one that is missing
(`ViewRequest.read_back_of_posted`).

| `startkey`, `endkey`, `key` | is posted as | and read back as |
| --- | --- | --- |
| not set | nothing | not set |
| set to null | null | not set |
| set to another value | the value | the value |

Among `keys`, which are an array, a null stays what it is.
-/

import DocClient.Proofs.Client
import DocClient.Proofs.Store.Records

namespace DocClient

open Fields Reader

namespace Fields

variable {o : Object} {name : String}

/-- A switch is left out where it is off. -/
theorem gives_switch {on : Bool} (hv : o.get? name = ViewRequest.switch on) :
    (defaulted name flag false).Gives o on := by
  refine gives_defaulted hv ?_ ?_
  · intro hoff
    cases on with
    | false => rfl
    | true => cases hoff
  · intro v hon
    cases on with
    | false => cases hon
    | true =>
      obtain rfl := Option.some.inj hon
      rfl

/-- A list of any values is left out where it is empty. -/
theorem gives_values {values : List Json}
    (hv : o.get? name = if values.isEmpty then none else some (.arr values)) (hc : ∀ v ∈ values, v.Canonical) :
    (defaulted name (Reader.list json) []).Gives o values := by
  refine gives_defaulted hv ?_ ?_
  · intro hnone
    cases values with
    | nil => rfl
    | cons v rest => cases hnone
  · intro v hsome
    cases values with
    | nil => cases hsome
    | cons first rest =>
      obtain rfl := Option.some.inj hsome
      have hitems : List.Forall₂ (fun v w => Reader.ofJson json v = .ok w) (first :: rest) (first :: rest) :=
        List.forall₂_same.2 fun v hv => json_ofJson rfl (hc v hv)
      exact list_ofJson.2 ⟨_, rfl, hitems⟩

/-- **A value that may be missing does not come back if it is null.** -/
theorem gives_any {a : Option Json} (hv : o.get? name = a) (hc : ∀ v, a = some v → v.Canonical) :
    (nullable name json).Gives o (a.filter fun v => !v.isNull) := by
  refine ⟨checked_nullable, build_nullable.2 ?_⟩
  rcases a with _ | v
  · exact .inl ⟨.inl hv, rfl⟩
  · have hread : Reader.ofJson json v = .ok v := json_ofJson rfl (hc v rfl)
    cases v with
    | null => exact .inl ⟨.inr hv, rfl⟩
    | _ => exact .inr ⟨_, _, hv, nofun, hread, rfl⟩

end Fields

/-- Of an object that leaves out what has no value, the values can be told. -/
theorem Json.lookup_of_ofOptions {entries entries' : List (String × Option Json)}
    (hnames : (entries.map Prod.fst).Nodup) (hnames' : (entries'.map Prod.fst).Nodup)
    (h : Json.ofOptions entries = Json.ofOptions entries') (name : String) :
    (entries.lookup name).join = (entries'.lookup name).join := by
  rw [← Table.get?_ofOptions hnames, Json.obj.inj h, Table.get?_ofOptions hnames']

theorem ViewUpdate.reader_toJson (u : ViewUpdate) : reader.ofJson u.toJson = .ok u := by
  cases u <;> rfl

theorem ViewUpdate.toJson_injective : Function.Injective ViewUpdate.toJson := by
  intro u u' h
  cases u <;> cases u' <;> simp_all [ViewUpdate.toJson]

namespace ViewRequest

theorem switch_injective : Function.Injective switch := by
  intro on on' h
  cases on <;> cases on' <;> simp_all [switch]

/-- The values of a list that is left out where it is empty. -/
theorem values_injective {values values' : List Json}
    (h : (if values.isEmpty then none else some (Json.arr values))
      = if values'.isEmpty then none else some (Json.arr values')) : values = values' := by
  cases values <;> cases values' <;> simp_all

/-- The free-form keys are in order, and the numbers have 32 and 64 bits. -/
structure Fits (r : ViewRequest) : Prop where
  startkey : ∀ v, r.startkey = some v → v.Canonical
  endkey : ∀ v, r.endkey = some v → v.Canonical
  key : ∀ v, r.key = some v → v.Canonical
  keys : ∀ v ∈ r.keys, v.Canonical
  groupLevel : ∀ n, r.groupLevel = some n → n ≤ 0xFFFFFFFF
  limit : ∀ n, r.limit = some n → n ≤ maxNat64
  skip : ∀ n, r.skip = some n → n ≤ maxNat64

/-- The request without the keys that are null. -/
def withoutNullKeys (r : ViewRequest) : ViewRequest :=
  { r with
    startkey := r.startkey.filter fun v => !v.isNull
    endkey := r.endkey.filter fun v => !v.isNull
    key := r.key.filter fun v => !v.isNull }

/-- **A request is read back without its null keys.** -/
theorem reader_toJson {r : ViewRequest} (hr : r.Fits) : reader.ofJson r.toJson = .ok r.withoutNullKeys := by
  refine record_of_options (by simp) fun hget => ?_
  refine ((((((((((((((((((((Gives.map ?_ _).seq ?_).seq ?_).seq ?_).seq ?_).seq ?_).seq ?_).seq ?_).seq ?_).seq ?_).seq
    ?_).seq ?_).seq ?_).seq ?_).seq ?_).seq ?_).seq ?_).seq ?_).seq ?_).seq ?_).seq ?_
  · exact gives_switch (hget _)
  · exact gives_switch (hget _)
  · exact gives_any (hget _) hr.startkey
  · exact gives_nullable (hget _) fun _ _ => ⟨nofun, rfl⟩
  · exact gives_any (hget _) hr.endkey
  · exact gives_nullable (hget _) fun _ _ => ⟨nofun, rfl⟩
  · exact gives_nullable (hget _) fun _ _ => ⟨nofun, rfl⟩
  · exact gives_nullable (hget _) fun n hn => ⟨nofun, natural_ofJson (hr.groupLevel n hn)⟩
  · exact gives_switch (hget _)
  · exact gives_switch (hget _)
  · exact gives_switch (hget _)
  · exact gives_nullable (hget _) fun _ _ => ⟨nofun, rfl⟩
  · exact gives_any (hget _) hr.key
  · exact gives_values (hget _) hr.keys
  · exact gives_nullable (hget _) fun n hn => ⟨nofun, natural_ofJson (hr.limit n hn)⟩
  · exact gives_nullable (hget _) fun _ _ => ⟨nofun, rfl⟩
  · exact gives_nullable (hget _) fun n hn => ⟨nofun, natural_ofJson (hr.skip n hn)⟩
  · exact gives_nullable (hget _) fun _ _ => ⟨nofun, rfl⟩
  · exact gives_nullable (hget _) fun _ _ => ⟨nofun, rfl⟩
  · exact gives_nullable (hget _) fun u _ => ⟨by cases u <;> nofun, u.reader_toJson⟩
  · exact gives_switch (hget _)

/-- Nothing is lost of a value that may be missing exactly if it is not null. -/
theorem filter_isPresent_iff {a : Option Json} : (a.filter fun v => !v.isNull) = a ↔ a ≠ some .null := by
  rcases a with _ | v
  · simp
  · cases v <;> simp [Json.isNull]

theorem withoutNullKeys_eq_self {r : ViewRequest} :
    r.withoutNullKeys = r ↔ r.startkey ≠ some .null ∧ r.endkey ≠ some .null ∧ r.key ≠ some .null := by
  rw [← filter_isPresent_iff, ← filter_isPresent_iff, ← filter_isPresent_iff]
  constructor
  · intro h
    exact ⟨congrArg ViewRequest.startkey h, congrArg ViewRequest.endkey h, congrArg ViewRequest.key h⟩
  · rintro ⟨hstart, hend, hkey⟩
    rw [withoutNullKeys, hstart, hend, hkey]

/-- **Different requests are written differently.** -/
theorem toJson_injective : Function.Injective toJson := by
  intro r r' h
  -- under each name the two bodies have the same, and what is there tells the option
  have hsame := Json.lookup_of_ofOptions (by simp) (by simp) h
  have hid : Function.Injective (Option.map fun id : DocId => Json.str id.text) :=
    Option.map_injective fun _ _ heq => congrArg DocId.mk (Json.str.inj heq)
  have hflag : Function.Injective (Option.map Json.bool) := Option.map_injective fun _ _ => Json.bool.inj
  have hnumber : Function.Injective (Option.map Json.ofNat) :=
    Option.map_injective fun _ _ heq => Int.ofNat.inj (Number.int.inj (Json.num.inj heq))
  have hupdate := Option.map_injective ViewUpdate.toJson_injective
  cases r
  cases r'
  rw [ViewRequest.mk.injEq]
  exact ⟨switch_injective (hsame "conflicts"), switch_injective (hsame "descending"), hsame "startkey",
    hid (hsame "startkey_docid"), hsame "endkey", hid (hsame "endkey_docid"), hflag (hsame "group"),
    hnumber (hsame "group_level"), switch_injective (hsame "include_docs"), switch_injective (hsame "attachments"),
    switch_injective (hsame "att_encoding_info"), hflag (hsame "inclusive_end"), hsame "key",
    values_injective (hsame "keys"), hnumber (hsame "limit"), hflag (hsame "reduce"), hnumber (hsame "skip"),
    hflag (hsame "sorted"), hflag (hsame "stable"), hupdate (hsame "update"), switch_injective (hsame "update_seq")⟩

end ViewRequest

/-- Whatever a call sends has a given body. -/
def Call.Posts {α : Type} (body : Json) (call : Call α) : Prop :=
  ∀ r, call.request? = some r → r.body = some body

namespace Client

variable (c : Client) (db : DatabaseName) (design : DocId) (view : String) (request : ViewRequest) (routes : Routes)

/-- A request has the body that it was made with. -/
theorem body_of_request? {method : Method} {path : List String} {options : Option (List (String × String))}
    {body : Option Json} {r : Request} (h : c.request? method path options body = some r) : r.body = body := by
  obtain ⟨url, -, rfl⟩ := Option.map_eq_some_iff.1 h
  rfl

/-- A view is asked with the request as the body. -/
theorem posts_rawView : (c.rawView db design view request routes).1.Posts request.toJson := by
  refine Plan.of_makes (fun _ => nofun) (Prepared.makes_bind fun _ => Prepared.makes_bind fun _ => ?_) routes
  refine Prepared.makes_pure fun r hr => ?_
  rw [request?_call] at hr
  exact c.body_of_request? hr

/-- A view whose rows are to be decoded is asked in the same way. -/
theorem posts_view {β : Type} (read : Reader β) :
    (c.view read db design view request routes).1.Posts request.toJson := by
  intro r hr
  rw [Client.view, Call.request?_andThen] at hr
  exact c.posts_rawView db design view request routes r hr

end Client

namespace ViewRequest

/-- **What becomes of a request that is posted and read back.** Every call that asks a view posts the request as it is,
and no other request is posted so; the body read back is the request without its null keys, so it is the request itself
exactly if it asks for none. -/
theorem read_back_of_posted (r : ViewRequest) (hr : r.Fits) :
    (∀ (c : Client) db design view routes, (c.rawView db design view r routes).1.Posts r.toJson)
    ∧ (∀ (β : Type) (read : Reader β) (c : Client) db design view routes,
      (c.view read db design view r routes).1.Posts r.toJson)
    ∧ (∀ r' : ViewRequest, r'.toJson = r.toJson → r' = r)
    ∧ reader.ofJson r.toJson = .ok r.withoutNullKeys
    ∧ (reader.ofJson r.toJson = .ok r ↔ r.startkey ≠ some .null ∧ r.endkey ≠ some .null ∧ r.key ≠ some .null) := by
  refine ⟨fun c db design view => c.posts_rawView db design view r,
    fun _ read c db design view routes => c.posts_view db design view r routes read,
    fun _ h => toJson_injective h, reader_toJson hr, ?_⟩
  rw [reader_toJson hr, Except.ok.injEq, withoutNullKeys_eq_self]

/-- A request for a range of keys that starts at null. -/
def sampleFromNull : ViewRequest :=
  { startkey := some .null, endkey := some (.arr [.null]), keys := [.null], limit := some maxNat64 }

/-- The range loses its start, and nothing else. -/
theorem read_back_of_posted_sample :
    reader.ofJson sampleFromNull.toJson = .ok { sampleFromNull with startkey := none } := by
  have hfits : sampleFromNull.Fits := by
    refine ⟨?_, ?_, nofun, ?_, nofun, ?_, nofun⟩
    · intro v hv
      obtain rfl := Option.some.inj hv
      trivial
    · intro v hv
      obtain rfl := Option.some.inj hv
      exact ⟨trivial, trivial⟩
    · intro v hv
      obtain rfl := List.mem_singleton.1 hv
      trivial
    · intro n hn
      obtain rfl := Option.some.inj hn
      exact Nat.le_refl _
  exact (sampleFromNull.read_back_of_posted hfits).2.2.2.1

/-- A request for the rows of the null key is written otherwise than one for all rows, and read back as that. -/
theorem null_key_read_back : reader.ofJson (withKey {} .null).toJson = .ok {}
    ∧ withKey {} .null ≠ {} ∧ (withKey {} .null).toJson = .obj [("key", .null)] := by
  decide +kernel

end ViewRequest
end DocClient
