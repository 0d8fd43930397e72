import CatalogSync.Proofs.Program.Ending
import CatalogSync.Proofs.Text.Dict
import CatalogSync.Settings.Seeding
import Mathlib.Data.Set.Card

/-!
# What seeding leaves in a store

A store of settings has values for some keys, and where it is faulty any call to it may fail (`store`). Seeding fills the
gaps of the store and counts them; up to a call that fails it has filled some of them (`Seeding`). Calling it again fills
the others.

Main statement: `seeding_fills_the_gaps`.
-/

namespace CatalogSync.Settings

open CatalogSync.Program CatalogSync.Text

abbrev Values := String → Option String

/-- A store of settings. Any call to a faulty one may fail, and a write that fails is carried out or is not. -/
def store (faulty : Bool) : World Values where
  stirs _ _ := False
  answers s q a s' :=
    match q, a with
    | .readSetting key, .ok value => value = s key ∧ s' = s
    | .readSetting _, .error _ => faulty = true ∧ s' = s
    | .writeSetting key value, .ok () => s' = Function.update s key (some value)
    | .writeSetting key value, .error _ => faulty = true ∧ (s' = s ∨ s' = Function.update s key (some value))
    | _, _ => False

/-- The keys that have no value before and have one after. -/
def gained (s s' : Values) : Set String := {key | s key = none ∧ s' key ≠ none}

/-- The values with those of the pairs for the keys that have none. -/
def filled (pairs : List (String × String)) (s : Values) : Values := fun key => (s key).or (pairs.lookup key)

section Gaps

variable {rest : List (String × String)} {key value : String} {s s' : Values}

theorem lookup_cons_of_ne {k : String} (h : k ≠ key) : ((key, value) :: rest).lookup k = rest.lookup k := by
  have hother : (k == key) = false := beq_eq_false_iff_ne.2 h
  rw [List.lookup_cons, hother]

/-- Nothing is there to fill for a key that has a value. -/
theorem filled_of_some (h : s key ≠ none) : filled ((key, value) :: rest) s = filled rest s := by
  funext k
  unfold filled
  by_cases hk : k = key
  · subst hk
    obtain ⟨v, hv⟩ := Option.ne_none_iff_exists'.1 h
    rw [hv, Option.some_or, Option.some_or]
  · rw [lookup_cons_of_ne hk]

/-- A gap is filled by the pair of its key. -/
theorem filled_of_none (h : s key = none) :
    filled ((key, value) :: rest) s = filled rest (Function.update s key (some value)) := by
  funext k
  unfold filled
  by_cases hk : k = key
  · subst hk
    rw [h, Function.update_self, List.lookup_cons_self, Option.none_or, Option.some_or]
  · rw [lookup_cons_of_ne hk, Function.update_of_ne hk]

theorem gained_of_none (h : s key = none) (h' : s' key ≠ none) :
    gained s s' = insert key (gained (Function.update s key (some value)) s') := by
  ext k
  unfold gained
  rw [Set.mem_insert_iff, Set.mem_ofPred_eq, Set.mem_ofPred_eq]
  by_cases hk : k = key
  · subst hk
    exact ⟨fun _ => .inl rfl, fun _ => ⟨h, h'⟩⟩
  · rw [Function.update_of_ne hk]
    exact ⟨.inr, fun hgained => hgained.resolve_left hk⟩

theorem notMem_gained_update : key ∉ gained (Function.update s key (some value)) s' := by
  rintro ⟨hnone, -⟩
  rw [Function.update_self] at hnone
  cases hnone

end Gaps

/-! ## Seeding -/

/-- What has come of seeding pairs, `written` of them before: keys with a value keep it, the others get that of their pair
or none, and unless a call has failed all of them do. -/
structure Seeding (faulty : Bool) (pairs : List (String × String)) (written : Nat) (s : Values) (r : Stored Nat)
    (t : List Event) (s' : Values) : Prop where
  partly : ∀ key, s' key = s key ∨ s key = none ∧ s' key = pairs.lookup key
  writes : ∀ e ∈ t, ∀ key value, e.1 = .writeSetting key value → s key = none ∧ pairs.lookup key ≠ none
  wholly : ∀ n, r = .ok n → s' = filled pairs s ∧ (gained s s').encard + written = n
  fails : ∀ e, r = .error e → faulty = true

namespace Seeding

variable {faulty : Bool} {rest : List (String × String)} {key value : String} {written : Nat} {s s' : Values}
  {r : Stored Nat} {t : List Event}

theorem nil : Seeding faulty [] written s (.ok written) [] s where
  partly _ := .inl rfl
  writes _ he := absurd he List.not_mem_nil
  wholly := by
    rintro _ ⟨⟩
    have hsame : s = filled [] s := funext fun key => (Option.or_none).symm
    have hnone : gained s s = ∅ := Set.eq_empty_of_forall_notMem fun key h => h.2 h.1
    rw [hnone, Set.encard_empty, zero_add]
    exact ⟨hsame, rfl⟩
  fails _ h := by cases h

theorem lookup_cons_ne_none {k : String} (h : rest.lookup k ≠ none) : ((key, value) :: rest).lookup k ≠ none := by
  by_cases hk : k = key
  · subst hk
    rw [List.lookup_cons_self]
    nofun
  · rwa [lookup_cons_of_ne hk]

/-- A key that has a value is read and passed over. -/
theorem passed (h : s key ≠ none) (hrest : Seeding faulty rest written s r t s') :
    Seeding faulty ((key, value) :: rest) written s r (⟨.readSetting key, .ok (s key)⟩ :: t) s' where
  partly k := by
    rcases hrest.partly k with hsame | ⟨hnone, hpair⟩
    · exact .inl hsame
    · have hk : k ≠ key := fun heq => h (heq ▸ hnone)
      exact .inr ⟨hnone, hpair.trans (lookup_cons_of_ne hk).symm⟩
  writes := by
    rw [List.forall_mem_cons]
    refine ⟨nofun, fun e he k v hask => ?_⟩
    have hwrite := hrest.writes e he k v hask
    exact ⟨hwrite.1, lookup_cons_ne_none hwrite.2⟩
  wholly n hn := by
    rw [filled_of_some h]
    exact hrest.wholly n hn
  fails := hrest.fails

/-- A key without a value is written, and counts as one. -/
theorem filledIn (h : s key = none)
    (hrest : Seeding faulty rest (written + 1) (Function.update s key (some value)) r t s') :
    Seeding faulty ((key, value) :: rest) written s r
      (⟨.readSetting key, .ok none⟩ :: ⟨.writeSetting key value, .ok ()⟩ :: t) s' where
  partly k := by
    have hpartly := hrest.partly k
    by_cases hk : k = key
    · subst hk
      rw [Function.update_self] at hpartly
      have hvalue : s' k = some value := hpartly.resolve_right fun hgap => by cases hgap.1
      exact .inr ⟨h, by rw [hvalue, List.lookup_cons_self]⟩
    · rwa [Function.update_of_ne hk, ← lookup_cons_of_ne hk] at hpartly
  writes := by
    rw [List.forall_mem_cons, List.forall_mem_cons]
    refine ⟨nofun, ?_, fun e he k v hask => ?_⟩
    · rintro _ _ ⟨⟩
      exact ⟨h, by rw [List.lookup_cons_self]; nofun⟩
    · obtain ⟨hgap, hpair⟩ := hrest.writes e he k v hask
      have hk : k ≠ key := by
        rintro rfl
        rw [Function.update_self] at hgap
        cases hgap
      rw [Function.update_of_ne hk] at hgap
      exact ⟨hgap, lookup_cons_ne_none hpair⟩
  wholly n hn := by
    obtain ⟨hfilled, hcount⟩ := hrest.wholly n hn
    have hvalue : s' key ≠ none := by
      rw [hfilled]
      unfold filled
      rw [Function.update_self, Option.some_or]
      nofun
    refine ⟨hfilled.trans (filled_of_none h).symm, ?_⟩
    rw [gained_of_none h hvalue, Set.encard_insert_of_notMem notMem_gained_update, ← hcount, Nat.cast_add, Nat.cast_one,
      add_assoc, add_comm 1]
  fails := hrest.fails

theorem readFailed (hfaulty : faulty = true) (e e' : StoreError) :
    Seeding faulty ((key, value) :: rest) written s (.error e') [⟨.readSetting key, .error e⟩] s where
  partly _ := .inl rfl
  writes := by
    rw [List.forall_mem_singleton]
    nofun
  wholly _ h := by cases h
  fails _ _ := hfaulty

theorem writeFailed (hfaulty : faulty = true) (h : s key = none)
    (hs' : s' = s ∨ s' = Function.update s key (some value)) (e e' : StoreError) :
    Seeding faulty ((key, value) :: rest) written s (.error e')
      [⟨.readSetting key, .ok none⟩, ⟨.writeSetting key value, .error e⟩] s' where
  partly k := by
    rcases hs' with rfl | rfl
    · exact .inl rfl
    · by_cases hk : k = key
      · subst hk
        exact .inr ⟨h, by rw [Function.update_self, List.lookup_cons_self]⟩
      · exact .inl (Function.update_of_ne hk _ _)
  writes := by
    rw [List.forall_mem_cons, List.forall_mem_singleton]
    refine ⟨nofun, ?_⟩
    rintro _ _ ⟨⟩
    exact ⟨h, by rw [List.lookup_cons_self]; nofun⟩
  wholly _ h := by cases h
  fails _ _ := hfaulty

end Seeding

/-- By induction on the pairs: each one is passed over, or fills a gap, or is the last one because a call has failed. -/
theorem seedPairs_ends (faulty : Bool) (pairs : List (String × String)) (written : Nat) (s : Values) :
    Ends (store faulty) True (Seeding faulty pairs written s) (seedPairs written pairs) [] s := by
  have hstays : ∀ {m : Values} (u u' : Values), u = m → (store faulty).stirs u u' → u' = m := fun _ _ _ h => h.elim
  induction pairs generalizing written s with
  | nil => exact Ends.pure (· = s) rfl hstays (by rintro _ rfl; exact .nil)
  | cons p rest ih =>
    obtain ⟨key, value⟩ := p
    refine Ends.call (· = s) rfl hstays ?_ ?_
    · rintro - m rfl
      exact ⟨m, .ok (m key), m, .refl m, rfl, rfl⟩
    rintro m a m' rfl hread
    cases a with
    | error e =>
      obtain ⟨hfaulty, rfl⟩ := hread
      exact Ends.pure (· = m') rfl hstays (by rintro _ rfl; exact .readFailed hfaulty e _)
    | ok found =>
      obtain ⟨rfl, rfl⟩ := hread
      cases hfound : m' key with
      | some old =>
        refine ((ih written m').behind [⟨.readSetting key, .ok (some old)⟩]).mono ?_
        rintro r t s' ⟨u, rfl, hrest⟩
        rw [← hfound]
        exact .passed (by rw [hfound]; nofun) hrest
      | none =>
        refine Ends.call (· = m') rfl hstays ?_ ?_
        · rintro - m rfl
          exact ⟨m, .ok (), Function.update m key (some value), .refl m, rfl⟩
        rintro m a m'' rfl hwrite
        cases a with
        | error e =>
          obtain ⟨hfaulty, hm''⟩ := hwrite
          exact Ends.pure (· = m'') rfl hstays (by rintro _ rfl; exact .writeFailed hfaulty hfound hm'' e _)
        | ok u =>
          obtain rfl : m'' = Function.update m key (some value) := hwrite
          refine ((ih (written + 1) _).behind
            [⟨.readSetting key, .ok none⟩, ⟨.writeSetting key value, .ok ()⟩]).mono ?_
          rintro r t s' ⟨u, rfl, hrest⟩
          exact .filledIn hfound hrest

/-! ## In any order -/

section Orders

variable {overrides order : List (String × String)}

/-- The value that seeding has for a key: an override comes before a default. -/
def seedValue (overrides : List (String × String)) (key : String) : Option String :=
  (overrides.lookup key).or (defaults.lookup key)

/-- The values after seeding: the old ones, and those that seeding has for the other keys. -/
def seeded (overrides : List (String × String)) (s : Values) : Values := fun key => (s key).or (seedValue overrides key)

/-- The order that the keys are visited in does not matter. -/
theorem lookup_of_perm (hkeys : (overrides.map Prod.fst).Nodup) (horder : order.Perm (merged overrides)) (key : String) :
    order.lookup key = seedValue overrides key := by
  have hdefaults : (defaults.map Prod.fst).Nodup := by decide
  have hmerged := (Dict.rising_ofList (defaults ++ overrides)).nodup
  rw [Dict.lookup_perm hmerged horder, ← Dict.find?_eq_lookup, Dict.find?_ofList, List.reverse_append, List.lookup_append,
    Dict.lookup_perm hkeys (List.reverse_perm _), Dict.lookup_perm hdefaults (List.reverse_perm _)]
  rfl

theorem filled_of_perm (hkeys : (overrides.map Prod.fst).Nodup) (horder : order.Perm (merged overrides)) (s : Values) :
    filled order s = seeded overrides s := by
  funext key
  unfold filled
  rw [lookup_of_perm hkeys horder]
  rfl

/-- Some of the gaps having been filled, filling the others comes to the same as filling all. -/
theorem seeded_of_partly {s s' : Values}
    (h : ∀ key, s' key = s key ∨ s key = none ∧ s' key = seedValue overrides key) :
    seeded overrides s' = seeded overrides s := by
  funext key
  unfold seeded
  rcases h key with hsame | ⟨hnone, hpair⟩
  · rw [hsame]
  · rw [hpair, hnone, Option.or_self, Option.none_or]

/-- Where seeding has left no gap it leaves everything as it is. -/
theorem Seeding.of_seeded {faulty : Bool} {s s' : Values} {r : Stored Nat} {t : List Event}
    (hkeys : (overrides.map Prod.fst).Nodup) (horder : order.Perm (merged overrides))
    (h : Seeding faulty order 0 (seeded overrides s) r t s') :
    s' = seeded overrides s ∧ (∀ e ∈ t, ∀ key value, e.1 ≠ .writeSetting key value) ∧
      (r = .ok 0 ∨ faulty = true ∧ ∃ e, r = .error e) := by
  have hnothing : ∀ key, seeded overrides s key = none → order.lookup key = none := by
    intro key hnone
    rw [lookup_of_perm hkeys horder]
    exact (Option.or_eq_none_iff.1 hnone).2
  have hsame : s' = seeded overrides s := by
    funext key
    rcases h.partly key with hsame | ⟨hnone, hpair⟩
    · exact hsame
    · rw [hpair, hnone, hnothing key hnone]
  refine ⟨hsame, fun e he key value hask => ?_, ?_⟩
  · obtain ⟨hgap, hpair⟩ := h.writes e he key value hask
    exact hpair (hnothing key hgap)
  · cases r with
    | error e => exact .inr ⟨h.fails e rfl, e, rfl⟩
    | ok n =>
      have hcount := (h.wholly n rfl).2
      have hnone : gained (seeded overrides s) s' = ∅ := by
        rw [hsame]
        exact Set.eq_empty_of_forall_notMem fun key hkey => hkey.2 hkey.1
      rw [hnone, Set.encard_empty, zero_add] at hcount
      rw [← Nat.cast_injective hcount]
      exact .inl rfl

theorem seedPairs_whole (hkeys : (overrides.map Prod.fst).Nodup) (horder : order.Perm (merged overrides)) (s : Values) :
    Ends (store false) True (fun r _ s' => (∃ n, r = .ok n) ∧ s' = seeded overrides s) (seedPairs 0 order) [] s := by
  refine (seedPairs_ends false order 0 s).mono fun r t s' h => ?_
  cases r with
  | error e => cases h.fails e rfl
  | ok n => exact ⟨⟨n, rfl⟩, (h.wholly n rfl).1.trans (filled_of_perm hkeys horder s)⟩

end Orders

/-! ## Main theorem -/

/-- **Seeding fills the gaps.** Whatever order the keys are visited in and whichever calls fail, seeding comes to an end. If
it succeeds then every key has its old value, or else the override, or else the default, or none; it tells how many keys
have got a value, and when it is called again at once it writes nothing and, if no call fails, tells of none. In any case
no value that was there has changed, each new one is the override or the default, and seeding again without failures comes
to the same values as seeding without failures at first. -/
theorem seeding_fills_the_gaps {overrides order : List (String × String)} (hkeys : (overrides.map Prod.fst).Nodup)
    (horder : order.Perm (merged overrides)) (s : Values) :
    Ends (store true) True (fun r _ s' =>
      (∀ n : Nat, r = .ok n → s' = seeded overrides s ∧ (gained s s').encard = n ∧
        ∀ faulty again, again.Perm (merged overrides) →
          Ends (store faulty) True (fun r' t s'' => s'' = s' ∧ (∀ e ∈ t, ∀ key value, e.1 ≠ .writeSetting key value) ∧
            (r' = .ok 0 ∨ faulty = true ∧ ∃ e, r' = .error e)) (seedPairs 0 again) [] s') ∧
      (∀ key, s' key = s key ∨ s key = none ∧ s' key = seedValue overrides key) ∧
      ∀ again, again.Perm (merged overrides) →
        Ends (store false) True (fun r' _ s'' => (∃ m, r' = .ok m) ∧ s'' = seeded overrides s) (seedPairs 0 again) [] s')
      (seedPairs 0 order) [] s ∧
    Ends (store false) True (fun r _ s' => (∃ n, r = .ok n) ∧ s' = seeded overrides s) (seedPairs 0 order) [] s := by
  refine ⟨(seedPairs_ends true order 0 s).mono fun r t s' h => ?_, seedPairs_whole hkeys horder s⟩
  have hpartly : ∀ key, s' key = s key ∨ s key = none ∧ s' key = seedValue overrides key := by
    intro key
    rw [← lookup_of_perm hkeys horder]
    exact h.partly key
  refine ⟨fun n hn => ?_, hpartly, fun again hagain => ?_⟩
  · obtain ⟨hfilled, hcount⟩ := h.wholly n hn
    obtain rfl := hfilled.trans (filled_of_perm hkeys horder s)
    rw [Nat.cast_zero, add_zero] at hcount
    refine ⟨rfl, hcount, fun faulty again hagain => ?_⟩
    exact (seedPairs_ends faulty again 0 _).mono fun r' t' s'' h' => h'.of_seeded hkeys hagain
  · rw [← seeded_of_partly hpartly]
    exact seedPairs_whole hkeys hagain s'

/-- Keys visited in falling order, with an override for a key that has a value and for one that has none. -/
theorem update_time_outlasts_override :
    let overrides := [("set_data_auto_update", "false"), ("card_data_update_time", "06:00")]
    let s : Values := Function.update (fun _ => none) "card_data_update_time" (some "05:30")
    (overrides.map Prod.fst).Nodup ∧ (merged overrides).reverse.Perm (merged overrides) ∧
      Ends (store true) True (fun r _ s' => ∀ n : Nat, r = .ok n → s' "card_data_update_time" = some "05:30" ∧
        s' "set_data_auto_update" = some "false" ∧ s' "set_data_update_time" = some "04:00")
        (seedPairs 0 (merged overrides).reverse) [] s := by
  intro overrides s
  have hkeys : (overrides.map Prod.fst).Nodup := by decide
  have horder : (merged overrides).reverse.Perm (merged overrides) := List.reverse_perm _
  refine ⟨hkeys, horder, (seeding_fills_the_gaps hkeys horder s).1.mono ?_⟩
  rintro r - s' ⟨hok, -⟩ n hn
  rw [(hok n hn).1]
  decide

end CatalogSync.Settings
