/-
# Which names of types become the same name of a database

A database that is named after its type keeps of the name its characters in lower case and where a capital follows a
letter (`Convention.snakeCase_eq_iff`). What it does not keep is whether any other character is a capital:

| names | databases |
| --- | --- |
| `Note`, `note` | the same: nothing stands before the first character |
| `user1Data`, `user1data` | the same: a digit is no letter |
| `AB`, `Ab` | two |
| `aB`, `a_b` | the same, which takes an underscore in a name |

Names of ASCII letters that begin with a capital are therefore told apart by their databases
(`Convention.snakeCase_inj`), and so are the types of such names, whatever is registered and resolved in which order
(`Routes.names_told_apart`).
-/

import DocClient.Proofs.Routing.History
import Mathlib

namespace DocClient

namespace Convention

variable {afterLetter : Bool} {cs ds : List Char}

theorem snakeChars_cons (afterLetter : Bool) (c : Char) (cs : List Char) :
    snakeChars afterLetter (c :: cs)
      = (if c.isUpper && afterLetter then ['_'] else []) ++ c.toLower :: snakeChars c.isAlpha cs := by
  rw [snakeChars]
  split <;> rfl

section Idempotent

theorem isUpper_of_mem_snakeChars {c : Char} (h : c ∈ snakeChars afterLetter cs) : c.isUpper = false := by
  induction cs generalizing afterLetter with
  | nil => exact nomatch h
  | cons d rest ih =>
    rw [snakeChars_cons, List.mem_append, List.mem_cons] at h
    rcases h with hmark | rfl | hrest
    · split at hmark
      · rw [List.mem_singleton.1 hmark]
        decide
      · exact nomatch hmark
    · exact Char.isUpper_toLower_eq_false d
    · exact ih hrest

/-- Without capitals there is nothing to change. -/
theorem snakeChars_eq_self (h : ∀ c ∈ cs, c.isUpper = false) : snakeChars afterLetter cs = cs := by
  induction cs generalizing afterLetter with
  | nil => rfl
  | cons c rest ih =>
    obtain ⟨hc, hrest⟩ := List.forall_mem_cons.1 h
    rw [snakeChars_cons, hc, Char.toLower_eq_of_not_isUpper (by simp [hc]), ih hrest]
    rfl

/-- The name of a database has no capital. -/
theorem isUpper_of_mem_snakeCase {name : String} {c : Char} (h : c ∈ (snakeCase name).toList) : c.isUpper = false := by
  rw [snakeCase, String.toList_ofList] at h
  exact isUpper_of_mem_snakeChars h

/-- The name of a database is its own name of a database. -/
theorem snakeCase_snakeCase (name : String) : snakeCase (snakeCase name) = snakeCase name := by
  rw [snakeCase, snakeChars_eq_self fun _ => isUpper_of_mem_snakeCase, String.ofList_toList]

end Idempotent

/-- The character after position `i` is a capital, and the one at `i` a letter. -/
def StartsWord (cs : List Char) (i : Nat) : Prop :=
  ∃ c d, cs[i]? = some c ∧ cs[i + 1]? = some d ∧ c.isAlpha ∧ d.isUpper

/-- For each character, whether it is a capital behind a letter; `afterLetter` says whether a letter stands before
them. -/
def wordStarts (afterLetter : Bool) : List Char → List Bool
  | [] => []
  | c :: cs => (c.isUpper && afterLetter) :: wordStarts c.isAlpha cs

theorem length_wordStarts (afterLetter : Bool) (cs : List Char) : (wordStarts afterLetter cs).length = cs.length := by
  induction cs generalizing afterLetter with
  | nil => rfl
  | cons c rest ih => rw [wordStarts, List.length_cons, List.length_cons, ih]

/-- No letter stands before the first character of a name. -/
theorem getElem_zero_wordStarts (h : 0 < (wordStarts false cs).length) : (wordStarts false cs)[0] = false := by
  cases cs with
  | nil => exact absurd h (Nat.lt_irrefl 0)
  | cons c rest => exact Bool.and_false _

theorem getElem?_wordStarts (afterLetter : Bool) (cs : List Char) (i : Nat) :
    (wordStarts afterLetter cs)[i + 1]? = some true ↔ StartsWord cs i := by
  induction cs generalizing afterLetter i with
  | nil => simp [wordStarts, StartsWord]
  | cons c rest ih =>
    rw [wordStarts, List.getElem?_cons_succ]
    cases i with
    | zero => cases rest <;> simp [wordStarts, StartsWord, and_comm]
    | succ i =>
      rw [ih]
      rfl

theorem wordStarts_eq_iff (hlength : cs.length = ds.length) :
    wordStarts false cs = wordStarts false ds ↔ ∀ i, StartsWord cs i ↔ StartsWord ds i := by
  constructor
  · intro h i
    rw [← getElem?_wordStarts false, h, getElem?_wordStarts]
  · intro h
    have hlengths : (wordStarts false cs).length = (wordStarts false ds).length := by
      rw [length_wordStarts, length_wordStarts, hlength]
    refine List.ext_getElem hlengths fun i hi hi' => ?_
    cases i with
    | zero => rw [getElem_zero_wordStarts, getElem_zero_wordStarts]
    | succ i =>
      have hsame := h i
      rw [← getElem?_wordStarts false, ← getElem?_wordStarts false, List.getElem?_eq_getElem hi,
        List.getElem?_eq_getElem hi', Option.some.injEq, Option.some.injEq] at hsame
      exact Bool.eq_iff_iff.2 hsame

theorem toLower_eq_underscore {c : Char} (h : c.toLower = '_') : c = '_' := by
  by_cases hupper : c.isUpper
  · have hletter : c.toLower.isAlpha = true := by
      rw [Char.isAlpha_toLower_eq_isAlpha, Char.isAlpha, hupper, Bool.true_or]
    rw [h] at hletter
    exact absurd hletter (by decide)
  · rwa [Char.toLower_eq_of_not_isUpper hupper] at h

theorem isAlpha_eq_of_toLower_eq {c d : Char} (h : c.toLower = d.toLower) : c.isAlpha = d.isAlpha := by
  rw [← Char.isAlpha_toLower_eq_isAlpha c, h, Char.isAlpha_toLower_eq_isAlpha]

/-- Without underscores of their own, names that are written the same have the same characters in lower case and the
same capitals behind letters. -/
theorem snakeChars_eq_iff (hcs : '_' ∉ cs) (hds : '_' ∉ ds) :
    snakeChars afterLetter cs = snakeChars afterLetter ds
      ↔ cs.map Char.toLower = ds.map Char.toLower ∧ wordStarts afterLetter cs = wordStarts afterLetter ds := by
  induction cs generalizing ds afterLetter with
  | nil =>
    cases ds with
    | nil => simp
    | cons d ds => rw [snakeChars_cons]; simp [snakeChars]
  | cons c cs ih =>
    cases ds with
    | nil => rw [snakeChars_cons]; simp [snakeChars]
    | cons d ds =>
      obtain ⟨hc, hcs⟩ := not_or.1 (mt List.mem_cons.2 hcs)
      obtain ⟨hd, hds⟩ := not_or.1 (mt List.mem_cons.2 hds)
      rw [snakeChars_cons, snakeChars_cons, wordStarts, wordStarts, List.map_cons, List.map_cons]
      by_cases hmark : (c.isUpper && afterLetter) = (d.isUpper && afterLetter)
      · rw [hmark, List.append_right_inj, List.cons.injEq, List.cons.injEq, List.cons.injEq, and_assoc]
        refine and_congr_right fun hlower => ?_
        -- the flag of the rest is the same, since lower case does not change what is a letter
        rw [isAlpha_eq_of_toLower_eq hlower, ih hcs hds]
        simp
      · -- one of the two begins with an underscore, which the other cannot have there
        refine iff_of_false (fun h => ?_) fun h => hmark (List.cons.inj h.2).1
        cases hcMark : c.isUpper && afterLetter <;> cases hdMark : d.isUpper && afterLetter <;>
          rw [hcMark, hdMark] at h hmark
        case true.false => exact hd (toLower_eq_underscore (List.cons.inj h).1.symm).symm
        case false.true => exact hc (toLower_eq_underscore (List.cons.inj h).1).symm
        all_goals exact hmark rfl

/-- **When two names become the same.** Without underscores of their own they do exactly if they are the same in lower
case and have their capitals behind letters in the same places. -/
theorem snakeCase_eq_iff {s t : String} (hs : '_' ∉ s.toList) (ht : '_' ∉ t.toList) :
    snakeCase s = snakeCase t ↔ s.toLower = t.toLower ∧ ∀ i, StartsWord s.toList i ↔ StartsWord t.toList i := by
  have hlower : s.toLower = t.toLower ↔ s.toList.map Char.toLower = t.toList.map Char.toLower := by
    rw [← String.toList_inj, String.toLower, String.toLower, String.toList_map, String.toList_map]
  rw [snakeCase, snakeCase, ← String.toList_inj, String.toList_ofList, String.toList_ofList, snakeChars_eq_iff hs ht,
    hlower]
  refine and_congr_right fun hchars => wordStarts_eq_iff ?_
  simpa using congrArg List.length hchars

example : snakeCase "Note" = snakeCase "note" ∧ snakeCase "user1Data" = snakeCase "user1data" := by decide

/-- A name of ASCII letters that begins with a capital. -/
structure IsTypeName (name : String) : Prop where
  letters : ∀ c ∈ name.toList, c.isAlpha
  capital : ∃ c rest, name.toList = c :: rest ∧ c.isUpper

theorem IsTypeName.underscore_not_mem {name : String} (h : IsTypeName name) : '_' ∉ name.toList :=
  fun hmem => absurd (h.letters _ hmem) (by decide)

/-- Behind a letter a word starts with each capital. -/
theorem startsWord_iff {i : Nat} (hletters : ∀ c ∈ cs, c.isAlpha) (hi : i + 1 < cs.length) :
    StartsWord cs i ↔ cs[i + 1].isUpper := by
  have hbefore : i < cs.length := Nat.lt_of_succ_lt hi
  rw [StartsWord, List.getElem?_eq_getElem hi, List.getElem?_eq_getElem hbefore]
  constructor
  · rintro ⟨c, d, -, hd, -, hupper⟩
    rwa [Option.some.inj hd]
  · exact fun hupper => ⟨_, _, rfl, rfl, hletters _ (List.getElem_mem hbefore), hupper⟩

/-- A character is told by its lower case and by whether it is a capital. -/
theorem eq_of_toLower_eq_of_isUpper_eq {c d : Char} (hlower : c.toLower = d.toLower) (hupper : c.isUpper = d.isUpper) :
    c = d := by
  have hcapital : ∀ {c : Char}, c.isUpper → c.toLower.toUpper = c := by
    intro c hc
    rw [Char.toUpper_toLower_eq_toUpper, Char.toUpper_eq_of_not_isLower (Char.not_isLower_of_isUpper hc)]
  by_cases hc : c.isUpper
  · rw [← hcapital hc, hlower, hcapital (hupper ▸ hc)]
  · rwa [Char.toLower_eq_of_not_isUpper hc, Char.toLower_eq_of_not_isUpper (hupper ▸ hc)] at hlower

/-- **Names of letters that begin with a capital are told apart.** -/
theorem snakeCase_inj {s t : String} (hs : IsTypeName s) (ht : IsTypeName t) (h : snakeCase s = snakeCase t) :
    s = t := by
  obtain ⟨hlower, hwords⟩ := (snakeCase_eq_iff hs.underscore_not_mem ht.underscore_not_mem).1 h
  rw [← String.toList_inj, String.toLower, String.toLower, String.toList_map, String.toList_map] at hlower
  have hlength : s.toList.length = t.toList.length := by
    simpa using congrArg List.length hlower
  refine String.toList_inj.1 (List.ext_getElem hlength fun i hi hi' => ?_)
  refine eq_of_toLower_eq_of_isUpper_eq ?_ ?_
  · have hsame := congrArg (·[i]?) hlower
    simpa [List.getElem?_eq_getElem hi, List.getElem?_eq_getElem hi'] using hsame
  · cases i with
    | zero =>
      obtain ⟨c, rest, hc, hupper⟩ := hs.capital
      obtain ⟨d, rest', hd, hupper'⟩ := ht.capital
      simp only [hc, hd, List.getElem_cons_zero, hupper, hupper']
    | succ i =>
      rw [Bool.eq_iff_iff, ← startsWord_iff hs.letters hi, ← startsWord_iff ht.letters hi', hwords]

end Convention

namespace RouteCall

/-- The type of a call. -/
def type : RouteCall → TypeTag
  | register T _ => T
  | resolve T => T

/-- A history leaves the database of a type to the naming of databases: whatever has the key of the type is the type,
and no registration of it names a database. -/
structure LeavesOpen (T : TypeTag) (calls : List RouteCall) : Prop where
  type_eq : ∀ call ∈ calls, call.key = T.key → call.type = T
  database_eq : ∀ r, register T r ∈ calls → r.database = none

end RouteCall

namespace Routes

variable {T : TypeTag} {s : Routes}

/-- Where each type has a database of its own, what is known of a type leads to the one that is named after it. -/
structure Conventional (T : TypeTag) (s : Routes) : Prop where
  naming_eq : s.naming = .perType
  registered : ∀ r, s.registered.get? T.key = some r → r.database = none
  settled : ∀ route, s.settled? T.key = some route → route.database = ⟨Convention.snakeCase T.name⟩

theorem database_of_route {typeName : String} {r : Registration} {route : Route} (hr : r.database = none)
    (h : r.route .perType typeName = .ok route) : route.database = ⟨Convention.snakeCase typeName⟩ := by
  have hdatabase : r.databaseFor .perType typeName = ⟨Convention.snakeCase typeName⟩ := by
    simp only [Registration.databaseFor, hr]
  rw [Registration.route_eq, hdatabase] at h
  split at h
  · exact nomatch h
  · split at h
    · exact nomatch h
    · exact (Except.ok.inj h) ▸ rfl

/-- **One call keeps to the naming**, and the route that it returns does. -/
theorem Conventional.call (h : Conventional T s) {call : RouteCall} {result : Outcome (Option Route)} {after : Routes}
    (htype : call.key = T.key → call.type = T) (hopen : ∀ r, call = .register T r → r.database = none)
    (hruns : call.Runs s result after) :
    Conventional T after ∧ ∀ route, call = .resolve T → result = .ok (some route) →
      route.database = ⟨Convention.snakeCase T.name⟩ := by
  cases hruns with
  | refused settled => exact ⟨h, nofun⟩
  | blank unsettled registered fails => exact ⟨h, nofun⟩
  | missing unsettled unregistered => exact ⟨h, nofun⟩
  | @enrolled U r unsettled =>
    refine ⟨⟨h.naming_eq, fun r' hr' => ?_, h.settled⟩, nofun⟩
    rw [registered_enroll] at hr'
    split at hr'
    · rename_i hkey
      obtain rfl := Option.some.inj hr'
      exact hopen _ (by rw [← htype hkey.symm]; rfl)
    · exact h.registered r' hr'
  | @found U route settled =>
    refine ⟨h, fun route' hcall hresult => ?_⟩
    obtain rfl := RouteCall.resolve.inj hcall
    obtain rfl := Option.some.inj (Except.ok.inj hresult)
    exact h.settled _ settled
  | @given U r route unsettled registered gives =>
    have hroute : U.key = T.key → route.database = ⟨Convention.snakeCase T.name⟩ := by
      intro hkey
      obtain rfl := htype hkey
      rw [h.naming_eq] at gives
      exact database_of_route (h.registered r registered) gives
    refine ⟨⟨h.naming_eq, h.registered, fun route' hroute' => ?_⟩, fun route' hcall hresult => ?_⟩
    · simp only [settled?, Table.get?_insert] at hroute'
      split at hroute'
      · rename_i hkey
        obtain rfl := Option.some.inj hroute'
        exact hroute hkey.symm
      · exact h.settled route' hroute'
    · obtain rfl := RouteCall.resolve.inj hcall
      obtain rfl := Option.some.inj (Except.ok.inj hresult)
      exact hroute rfl

/-- **Every history keeps to the naming.** -/
theorem Conventional.record {calls : List RouteCall} (h : Conventional T s) (hopen : RouteCall.LeavesOpen T calls)
    {route : Route} (hroute : (RouteCall.resolve T, .ok (some route)) ∈ s.record calls) :
    route.database = ⟨Convention.snakeCase T.name⟩ := by
  induction calls generalizing s with
  | nil => exact nomatch hroute
  | cons call rest ih =>
    have hrest : RouteCall.LeavesOpen T rest :=
      ⟨fun other hother => hopen.type_eq other (List.mem_cons_of_mem _ hother),
        fun r hr => hopen.database_eq r (List.mem_cons_of_mem _ hr)⟩
    obtain ⟨hafter, hreturned⟩ := h.call (hopen.type_eq call (List.mem_cons_self ..))
      (fun r hr => hopen.database_eq r (hr ▸ List.mem_cons_self ..)) (call.runs_run s)
    rcases List.mem_cons.1 hroute with heq | hroute
    · obtain ⟨hcall, hresult⟩ := Prod.mk.inj heq
      exact hreturned route hcall.symm hresult.symm
    · exact ih hafter hrest hroute

theorem conventional_start (T : TypeTag) : Conventional T { naming := .perType } :=
  ⟨rfl, nofun, nofun⟩

/-- **Which names of types become the same name of a database.** A name of a database has no capital and is its own name
of a database. Names without underscores become the same exactly if they are the same in lower case and have their
capitals behind letters in the same places. And whatever the types of a client are, whatever is registered of them and
in which order they are resolved: where each type has a database of its own, two types whose databases were left open
are never resolved to one database, if their names are two names of letters that begin with a capital. -/
theorem names_told_apart :
    (∀ name, Convention.snakeCase (Convention.snakeCase name) = Convention.snakeCase name
      ∧ ∀ c ∈ (Convention.snakeCase name).toList, c.isUpper = false)
    ∧ (∀ s t : String, '_' ∉ s.toList → '_' ∉ t.toList → (Convention.snakeCase s = Convention.snakeCase t
        ↔ s.toLower = t.toLower
          ∧ ∀ i, Convention.StartsWord s.toList i ↔ Convention.StartsWord t.toList i))
    ∧ ∀ (calls : List RouteCall) (T U : TypeTag) (route route' : Route), Convention.IsTypeName T.name →
        Convention.IsTypeName U.name → T.name ≠ U.name → RouteCall.LeavesOpen T calls → RouteCall.LeavesOpen U calls →
        (.resolve T, .ok (some route)) ∈ record { naming := .perType } calls →
        (.resolve U, .ok (some route')) ∈ record { naming := .perType } calls → route.database ≠ route'.database := by
  refine ⟨fun name => ⟨Convention.snakeCase_snakeCase name, fun _ => Convention.isUpper_of_mem_snakeCase⟩,
    fun s t hs ht => Convention.snakeCase_eq_iff hs ht, ?_⟩
  intro calls T U route route' hT hU hne hopen hopen' hroute hroute' hsame
  have hdatabase := (conventional_start T).record hopen hroute
  have hdatabase' := (conventional_start U).record hopen' hroute'
  rw [hdatabase, hdatabase', DatabaseName.mk.injEq] at hsame
  exact hne (Convention.snakeCase_inj hT hU hsame)

/-- A history of two types whose names differ in one capital; a third one has a database of its own choice. -/
def sampleHistory : List RouteCall :=
  [.register ⟨"0", "UserID"⟩ {}, .register ⟨"1", "UserId"⟩ {}, .register ⟨"2", "User"⟩ { database := some ⟨"user_id"⟩ },
    .resolve ⟨"2", "User"⟩, .resolve ⟨"1", "UserId"⟩, .resolve ⟨"0", "UserID"⟩]

/-- The two types are resolved to two databases. -/
theorem names_told_apart_sample : Convention.snakeCase "UserID" ≠ Convention.snakeCase "UserId"
    ∧ (RouteCall.resolve ⟨"0", "UserID"⟩, .ok (some ⟨⟨"user_i_d"⟩, ⟨"UserID"⟩⟩))
      ∈ record { naming := .perType } sampleHistory
    ∧ (RouteCall.resolve ⟨"1", "UserId"⟩, .ok (some ⟨⟨"user_id"⟩, ⟨"UserId"⟩⟩))
      ∈ record { naming := .perType } sampleHistory
    ∧ (⟨"user_i_d"⟩ : DatabaseName) ≠ ⟨"user_id"⟩ := by
  have hopen : ∀ T : TypeTag, T = ⟨"0", "UserID"⟩ ∨ T = ⟨"1", "UserId"⟩ → RouteCall.LeavesOpen T sampleHistory := by
    rintro T (rfl | rfl) <;> exact ⟨by decide, by simp [sampleHistory]⟩
  have hletters : ∀ c ∈ "UserID".toList, c.isAlpha := List.all_eq_true.1 (by decide)
  have hletters' : ∀ c ∈ "UserId".toList, c.isAlpha := List.all_eq_true.1 (by decide)
  have hfirst : (RouteCall.resolve ⟨"0", "UserID"⟩, .ok (some ⟨⟨"user_i_d"⟩, ⟨"UserID"⟩⟩))
      ∈ record { naming := .perType } sampleHistory := by decide +kernel
  have hsecond : (RouteCall.resolve ⟨"1", "UserId"⟩, .ok (some ⟨⟨"user_id"⟩, ⟨"UserId"⟩⟩))
      ∈ record { naming := .perType } sampleHistory := by decide +kernel
  obtain ⟨-, hsame, htypes⟩ := names_told_apart
  refine ⟨fun h => ?_, hfirst, hsecond, ?_⟩
  · have hwords := ((hsame _ _ (by decide) (by decide)).1 h).2 4
    rw [Convention.startsWord_iff hletters (by decide), Convention.startsWord_iff hletters' (by decide)] at hwords
    exact absurd hwords (by decide)
  · exact htypes sampleHistory _ _ _ _ ⟨hletters, _, _, rfl, by decide⟩ ⟨hletters', _, _, rfl, by decide⟩ (by decide)
      (hopen _ (.inl rfl)) (hopen _ (.inr rfl)) hfirst hsecond

end Routes
end DocClient
