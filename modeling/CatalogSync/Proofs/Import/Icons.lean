import CatalogSync.Proofs.Import.Applying
import CatalogSync.Proofs.Import.Asks

/-!
# Icons while a feed is applied

A download goes into a partial file, which is no icon, and is moved to where no icon was. So whatever the web
answers, the icons on disk stay as they are (`FilesKept`), an icon that is noted stays noted (`PathsKept`), and
nothing is requested but icons that were not on disk (`Sought`). `sets_carried` says it of a batch of sets.
-/

namespace CatalogSync.Import

open CatalogSync.Catalog CatalogSync.Feed CatalogSync.Server CatalogSync.Store CatalogSync.Text

/-! ## Paths -/

theorem getLast_iconPath (assets code : String) : (iconPath assets code).toList.getLast? = some 'g' := by
  have hsvg : ".svg".toList = ['.', 's', 'v', 'g'] := by decide
  unfold iconPath
  rw [String.toList_append, hsvg, List.getLast?_append]
  rfl

/-- A partial file is no icon: it ends otherwise, but for that of a path without a name, which an icon has. -/
theorem partialPath_ne_iconPath (path assets code : String) : partialPath path ≠ iconPath assets code := by
  have hicon := getLast_iconPath assets code
  intro h
  unfold partialPath Files.withEnding at h
  dsimp only at h
  split at h
  · have hpart : "part".toList = ['p', 'a', 'r', 't'] := by decide
    rw [← h, String.toList_append, hpart, List.getLast?_append] at hicon
    cases hicon
  · next hname =>
    rw [← h, ← List.head?_reverse] at hicon
    obtain ⟨r, hr⟩ := List.head?_eq_some_iff.1 hicon
    rw [hr, Files.dropUnnamed_named (by decide) (by decide)] at hname
    exact hname rfl

/-! ## What stays -/

/-- The icons on disk are there as they were. -/
def FilesKept (assets : String) (files files' : Dict (List UInt8)) : Prop :=
  ∀ code bytes, files.find? (iconPath assets code) = some bytes → files'.find? (iconPath assets code) = some bytes

/-- A set keeps its icon, unless the icon is noted at the place where it belongs. -/
def PathsKept (assets : String) (c c' : Catalog) : Prop :=
  ∀ code r, c.setRow? code = some r →
    ∃ r', c'.setRow? code = some r' ∧ (r'.iconPath = r.iconPath ∨ r'.iconPath = some (iconPath assets code))

/-- Every request is for the icon of one of the sets. It follows upon the look for that icon, which is not there
and was not there before. -/
def Sought (assets : String) (sets : List CardSet) (files : Dict (List UInt8)) (t : List Event) : Prop :=
  ∀ u location patience token reply v, t = u ++ ⟨.request location patience token, reply⟩ :: v →
    ∃ w, ∃ set ∈ sets, set.iconUri = some location ∧ files.find? (iconPath assets set.code) = none ∧
      u = w ++ [⟨.fileExists (iconPath assets set.code), false⟩]

section Kept

variable {assets : String} {sets sets' : List CardSet} {files files' : Dict (List UInt8)} {c c' c'' : Catalog}
  {t : List Event}

theorem FilesKept.put {path : String} (h : FilesKept assets files files')
    (hpath : ∀ code bytes, files.find? (iconPath assets code) = some bytes → path ≠ iconPath assets code)
    (bytes : List UInt8) : FilesKept assets files (files'.put path bytes) := by
  intro code old hold
  rw [Dict.find?_put_of_ne _ _ (Ne.symm (hpath code old hold))]
  exact h code old hold

theorem FilesKept.drop {path : String} (h : FilesKept assets files files') (hpath : ∀ code, path ≠ iconPath assets code) :
    FilesKept assets files (files'.filter fun (p, _) => p ≠ path) := by
  intro code old hold
  rw [Dict.find?_filter_of_ne _ (Ne.symm (hpath code))]
  exact h code old hold

theorem PathsKept.refl (assets : String) (c : Catalog) : PathsKept assets c c := fun _ r hr => ⟨r, hr, .inl rfl⟩

theorem PathsKept.trans (h : PathsKept assets c c') (h' : PathsKept assets c' c'') : PathsKept assets c c'' := by
  intro code r hr
  obtain ⟨r', hr', hpath⟩ := h code r hr
  obtain ⟨r'', hr'', hpath'⟩ := h' code r' hr'
  refine ⟨r'', hr'', ?_⟩
  rcases hpath' with hsame | hnoted
  · rw [hsame]
    exact hpath
  · exact .inr hnoted

theorem upsertSets_pathsKept (assets : String) (now : Time.Instant) (sets : List CardSet) (c : Catalog) :
    PathsKept assets c (c.upsertSets now sets).2 := by
  intro code r hr
  obtain ⟨r', hr', -, hpath⟩ := upsertSets_keeps now sets hr
  exact ⟨r', hr', .inl hpath⟩

theorem recordIcon_pathsKept (assets code : String) (c : Catalog) :
    PathsKept assets c (c.recordIcon code (iconPath assets code)) := by
  intro other r hr
  have hrow := setRow?_recordIcon code (iconPath assets code) other c
  have hcode : r.code = other := key_of_row? hr
  rw [hr] at hrow
  refine ⟨_, hrow, ?_⟩
  unfold withIcon
  split
  · next heq =>
    rw [← hcode, heq]
    exact .inr rfl
  · exact .inl rfl

theorem sought_nil (assets : String) (sets : List CardSet) (files : Dict (List UInt8)) : Sought assets sets files [] := by
  intro u location patience token reply v h
  cases u <;> cases h

theorem Sought.mono (h : Sought assets sets files t) (hsets : sets ⊆ sets') : Sought assets sets' files t := by
  intro u location patience token reply v heq
  obtain ⟨w, set, hset, hrest⟩ := h u location patience token reply v heq
  exact ⟨w, set, hsets hset, hrest⟩

/-- One event more, which is no request or is one that may be. -/
theorem Sought.snoc {q : Ask} {a : q.Answer} (h : Sought assets sets files t)
    (hq : ∀ location patience token, q = .request location patience token →
      ∃ w, ∃ set ∈ sets, set.iconUri = some location ∧ files.find? (iconPath assets set.code) = none ∧
        t = w ++ [⟨.fileExists (iconPath assets set.code), false⟩]) : Sought assets sets files (t ++ [⟨q, a⟩]) := by
  intro u location patience token reply v heq
  rcases List.eq_nil_or_concat v with rfl | ⟨v, e, rfl⟩
  · obtain ⟨rfl, hlast⟩ := List.append_inj' heq rfl
    injection hlast with hevent
    injection hevent with hasked
    exact hq location patience token hasked
  · rw [List.concat_eq_append, ← List.cons_append, ← List.append_assoc] at heq
    obtain ⟨hinit, -⟩ := List.append_inj' heq rfl
    exact h u location patience token reply v hinit

end Kept

/-! ## What the questions of an icon do -/

/-- All that is known while the icons of sets are seen to. -/
structure SetsKnown (assets : String) (c₀ : Catalog) (f₀ : Dict (List UInt8)) (sets : List CardSet) (t : List Event)
    (c : Catalog) (f : Dict (List UInt8)) : Prop where
  landed : Landed setShape c₀.sets sets c.sets
  cards : c.cards = c₀.cards
  paths : PathsKept assets c₀ c
  files : FilesKept assets f₀ f
  sought : Sought assets sets f₀ t

/-- Questions that do no harm to the icons that were on disk; to look for an icon and to request it is left
out here. -/
def isHarmless (assets : String) (f₀ : Dict (List UInt8)) : Ask → Prop
  | .makeDirectory _ => True
  | .createFile path => ∀ code, path ≠ iconPath assets code
  | .appendFile path _ => ∀ code, path ≠ iconPath assets code
  | .flushFile _ => True
  | .moveFile source target => (∀ code, source ≠ iconPath assets code) ∧ f₀.find? target = none
  | .findSet _ => True
  | .recordIcon code path => path = iconPath assets code
  | .isCancelled _ => True
  | _ => False

section Steps

variable {assets : String} {c₀ : Catalog} {f₀ : Dict (List UInt8)} {sets : List CardSet} {t : List Event}
  {s s' : Server} {live : Prop}

/-- What is known of a server. -/
abbrev KnownOf (assets : String) (c₀ : Catalog) (f₀ : Dict (List UInt8)) (sets : List CardSet) (t : List Event)
    (s : Server) : Prop :=
  SetsKnown assets c₀ f₀ sets t s.catalog s.files

theorem knownOf_stirs (t : List Event) (s s' : Server) (h : KnownOf assets c₀ f₀ sets t s) (hstir : Stirs s s') :
    KnownOf assets c₀ f₀ sets t s' :=
  (stirs_beside (Q := fun _ => True) (R := SetsKnown assets c₀ f₀ sets t) (fun _ _ _ _ => trivial) s s' ⟨trivial, h⟩
    hstir).2

theorem SetsKnown.snoc {c : Catalog} {f : Dict (List UInt8)} {q : Ask} {a : q.Answer}
    (h : SetsKnown assets c₀ f₀ sets t c f) (hq : ∀ location patience token, q ≠ .request location patience token) :
    SetsKnown assets c₀ f₀ sets (t ++ [⟨q, a⟩]) c f :=
  { h with sought := h.sought.snoc fun location patience token heq => absurd heq (hq location patience token) }

theorem filed_known {path : String} {f : Server → Server} {a : Filed Unit} (h : KnownOf assets c₀ f₀ sets t s)
    (hf : KnownOf assets c₀ f₀ sets t (f s)) (hans : some (s.filed path f) = some (a, s')) :
    KnownOf assets c₀ f₀ sets t s' := by
  unfold filed at hans
  split at hans
  · cases hans
    exact h
  · cases hans
    exact hf

theorem guarded_known {α : Type} {call : Call} {f : Server → Stored α × Server} {a : Stored α}
    (h : KnownOf assets c₀ f₀ sets t s) (hf : KnownOf assets c₀ f₀ sets t (f s).2)
    (hans : some (s.guarded call f) = some (a, s')) : KnownOf assets c₀ f₀ sets t s' := by
  unfold guarded at hans
  split at hans
  · cases hans
    exact h
  · rw [Option.some.inj hans] at hf
    exact hf

/-- **A harmless question** leaves all as it is known. -/
theorem harmless_known {q : Ask} {a : q.Answer} (hq : isHarmless assets f₀ q) (h : KnownOf assets c₀ f₀ sets t s)
    (hans : Answers s q a s') : KnownOf assets c₀ f₀ sets (t ++ [⟨q, a⟩]) s' := by
  cases q with
  | makeDirectory path | flushFile path => exact (filed_known h h hans).snoc nofun
  | createFile path =>
    have hput : KnownOf assets c₀ f₀ sets t { s with files := s.files.put path [] } :=
      { h with files := h.files.put (fun code _ _ => hq code) _ }
    exact (filed_known h hput hans).snoc nofun
  | appendFile path bytes =>
    have hput : KnownOf assets c₀ f₀ sets t { s with files := s.files.put path ((s.files.find? path).getD [] ++ bytes) } :=
      { h with files := h.files.put (fun code _ _ => hq code) _ }
    exact (filed_known h hput hans).snoc nofun
  | moveFile source target =>
    obtain ⟨hsource, htarget⟩ := hq
    have hanswer : some (moveFile source target s) = some (a, s') := hans
    unfold moveFile at hanswer
    split at hanswer
    · cases hanswer
      exact h.snoc nofun
    · cases hanswer
      have hfree : ∀ code bytes, f₀.find? (iconPath assets code) = some bytes → target ≠ iconPath assets code := by
        intro code bytes hold heq
        rw [heq, hold] at htarget
        cases htarget
      refine SetsKnown.snoc ?_ nofun
      exact { h with files := (h.files.drop hsource).put hfree _ }
  | findSet code => exact (guarded_known h h hans).snoc nofun
  | recordIcon code path =>
    have hpath : path = iconPath assets code := hq
    subst hpath
    have hnoted : KnownOf assets c₀ f₀ sets t
        { s with catalog := s.catalog.recordIcon code (iconPath assets code) } :=
      { h with
        landed := recordIcon_landed h.landed code (iconPath assets code)
        paths := h.paths.trans (recordIcon_pathsKept assets code s.catalog) }
    exact (guarded_known h hnoted hans).snoc nofun
  | isCancelled token =>
    cases hans
    exact h.snoc nofun
  | _ => cases hq

theorem harmless_answered {q : Ask} (hq : isHarmless assets f₀ q) (s : Server) : ∃ a s', Answers s q a s' := by
  refine answered ?_ s
  cases q <;> first | rfl | cases hq

/-- A program of harmless questions. -/
theorem harmless_ends {α : Type} {p : Program α} (hp : p.All (isHarmless assets f₀) fun _ => True)
    (h : KnownOf assets c₀ f₀ sets t s) :
    p.Ends working live (fun _ t s => KnownOf assets c₀ f₀ sets t s) t s := by
  refine (hp.ends (KnownOf assets c₀ f₀ sets) knownOf_stirs (fun q hq => harmless_answered hq) ?_ h).mono ?_
  · exact fun q hq t s a s' hknown hans => harmless_known hq hknown hans
  · exact fun _ _ _ hknown => hknown.2

end Steps

/-! ## The icons of a batch -/

section Batch

variable {assets : String} {c₀ : Catalog} {f₀ : Dict (List UInt8)} {sets : List CardSet} {t : List Event}
  {s : Server} {live : Prop}

theorem noteIcon_harmless (assets : String) (f₀ : Dict (List UInt8)) (code : String) :
    (noteIcon code (iconPath assets code)).All (isHarmless assets f₀) fun _ => True := noteIcon_all trivial rfl

theorem store_harmless {path : String} (hnone : f₀.find? path = none) (location : String) (body : Source) :
    (store location path body).All (isHarmless assets f₀) fun _ => True := by
  have hpartial : ∀ code, partialPath path ≠ iconPath assets code := partialPath_ne_iconPath path assets
  exact store_all (fun _ _ => trivial) hpartial (fun _ => hpartial) trivial ⟨hpartial, hnone⟩ location body

/-- The download of an icon that is not there, right after it was looked for. -/
theorem download_ends {set : CardSet} {location : String} (hset : set ∈ sets) (huri : set.iconUri = some location)
    (hnone : f₀.find? (iconPath assets set.code) = none) (h : KnownOf assets c₀ f₀ sets t s) :
    (download location (iconPath assets set.code)).Ends working live (fun _ t s => KnownOf assets c₀ f₀ sets t s)
      (t ++ [⟨.fileExists (iconPath assets set.code), false⟩]) s := by
  refine Program.Ends.call _ h (knownOf_stirs t) (fun _ m _ => ⟨m, .none, m, .refl m, rfl⟩) ?_
  intro m reply m' h hans
  obtain rfl : m' = m := hans
  have hlooked : KnownOf assets c₀ f₀ sets (t ++ [⟨.fileExists (iconPath assets set.code), false⟩]) m' := h.snoc nofun
  have hrequested : KnownOf assets c₀ f₀ sets (t ++ [⟨.fileExists (iconPath assets set.code), false⟩] ++
      [⟨.request location .timed none, reply⟩]) m' := by
    refine { hlooked with sought := hlooked.sought.snoc fun location' patience token heq => ?_ }
    cases heq
    exact ⟨t, set, hset, huri, hnone, rfl⟩
  refine harmless_ends ?_ hrequested
  cases reply with
  | failed chain => trivial
  | none => trivial
  | cancelled => trivial
  | answered status body =>
    dsimp only
    split
    · exact store_harmless hnone location body
    · trivial

/-- The icon of a set. It is requested only if it is not on disk, and then it was not on disk before. -/
theorem ensureIcon_ends {set : CardSet} (hset : set ∈ sets) (h : KnownOf assets c₀ f₀ sets t s) :
    (ensureIcon assets set).Ends working live (fun _ t s => KnownOf assets c₀ f₀ sets t s) t s := by
  unfold ensureIcon
  split
  · exact harmless_ends (.pure trivial) h
  · next location huri =>
    refine Program.Ends.call _ h (knownOf_stirs t) (fun _ m _ => ⟨m, _, _, .refl m, rfl⟩) ?_
    intro m there m' h hans
    have hanswer : some ((m.files.find? (iconPath assets set.code)).isSome, m) = some (there, m') := hans
    obtain ⟨hthere, rfl⟩ := Prod.mk.inj (Option.some.inj hanswer)
    cases there with
    | true => exact harmless_ends (noteIcon_harmless assets f₀ set.code) (h.snoc nofun)
    | false =>
      -- what is not there now was not there before, as all that was there still is
      have hnone : f₀.find? (iconPath assets set.code) = none := by
        cases hold : f₀.find? (iconPath assets set.code) with
        | none => rfl
        | some bytes =>
          rw [h.files set.code bytes hold] at hthere
          cases hthere
      refine (download_ends hset huri hnone h).bind fun outcome t s h => ?_
      cases outcome with
      | error chain => exact harmless_ends (.pure trivial) h
      | ok size => exact harmless_ends (noteIcon_harmless assets f₀ set.code) h

/-- The icons of a batch, one set after the other. -/
theorem ensureIcons_ends (token : Token) {todo : List CardSet} (htodo : todo ⊆ sets) (h : KnownOf assets c₀ f₀ sets t s) :
    (ensureIcons assets token todo).Ends working live (fun _ t s => KnownOf assets c₀ f₀ sets t s) t s := by
  induction todo generalizing t s with
  | nil => exact harmless_ends (.pure trivial) h
  | cons set rest ih =>
    refine Program.Ends.call _ h (knownOf_stirs t) (fun _ m _ => ⟨m, _, _, .refl m, rfl⟩) ?_
    intro m cancelled m' h hans
    have hasked := harmless_known (q := .isCancelled token) trivial h hans
    cases cancelled with
    | true => exact harmless_ends (.pure trivial) hasked
    | false =>
      rw [List.cons_subset] at htodo
      refine (ensureIcon_ends htodo.1 hasked).bind fun outcome t s h => (ih htodo.2 h).bind fun failures t s h => ?_
      cases outcome <;> exact harmless_ends (.pure trivial) h

end Batch

/-! ## Sets -/

/-- What is known of a feed of sets, applied to a catalog and to files. -/
def SetsApplied (assets : String) (c₀ : Catalog) (f₀ : Dict (List UInt8)) : Knowledge := fun received _ t c f =>
  SetsKnown assets c₀ f₀ (records readSet received.flatten) t c f

theorem sets_carried (assets : String) (c₀ : Catalog) (f₀ : Dict (List UInt8)) (token : Token) :
    Carries .sets assets token (SetsApplied assets c₀ f₀) where
  idle q a hq h := by
    refine SetsKnown.snoc h ?_
    rintro location patience token rfl
    cases hq
  batch {received p t s} live items hcalm h := by
    have hread := readAll_eq readSet items
    unfold applyBatch
    rw [hread]
    refine Program.Ends.call (fun m => Calm token m ∧ SetsApplied assets c₀ f₀ received p t m.catalog m.files)
      ⟨hcalm, h⟩ (stirs_beside fun _ _ h => h.stirs) (fun _ m _ => ⟨m, _, _, .refl m, rfl⟩) ?_
    rintro m answer m' ⟨hcalm, hknown⟩ hans
    have hanswer : some (m.guarded .upsert (upsert fun now => Catalog.upsertSets now (records readSet items))) =
        some (answer, m') := hans
    rw [hcalm.upsert] at hanswer
    cases hanswer
    have hlanded := hknown.landed.append (Catalog.upsertSets_landed m.clock (records readSet items) m.catalog)
    have hwritten : SetsKnown assets c₀ f₀ (records readSet (received.flatten ++ items)) t
        (Catalog.upsertSets m.clock (records readSet items) m.catalog).2 m.files := by
      rw [records_append]
      exact { hknown with
        landed := hlanded
        sought := hknown.sought.mono (List.subset_append_left _ _)
        paths := hknown.paths.trans (upsertSets_pathsKept assets m.clock (records readSet items) m.catalog) }
    have hasked := SetsKnown.snoc (q := .upsertSets (records readSet items)) (a := .ok (records readSet items).length)
      hwritten nofun
    have htodo : records readSet items ⊆ records readSet (received.flatten ++ items) := by
      rw [records_append]
      exact List.subset_append_right _ _
    refine (ensureIcons_ends token htodo hasked).bind fun failures t s h => ?_
    refine Program.Ends.pure _ h (knownOf_stirs t) fun s h => ⟨_, rfl, ?_⟩
    show SetsKnown assets c₀ f₀ (records readSet (received ++ [items]).flatten) t s.catalog s.files
    rw [List.flatten_append, List.flatten_singleton]
    exact h

end CatalogSync.Import
