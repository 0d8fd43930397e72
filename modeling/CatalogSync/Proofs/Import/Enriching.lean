import CatalogSync.Proofs.Import.Downloading
import CatalogSync.Proofs.Import.Icons

/-!
# The icons of a batch

A set is written, and then its icon is looked for, downloaded if it is not there, and noted in the catalog. Each of these
may fail, and others of the batch may share its code.

Main statement: `unreported_sets_have_icons`. What is not reported has its icon on disk and noted at the end of the batch,
and a code without a location for its icon is left alone.
-/

namespace CatalogSync.Import

open CatalogSync.Catalog CatalogSync.Program CatalogSync.Server CatalogSync.Store CatalogSync.Text

/-! ## Sets of a batch -/

/-- Writes sets and sees to their icons; tells how many were written and which icons failed. -/
def applySets (assets : String) (sets : List CardSet) (token : Token) : Program (Stored (Nat × List String)) := do
  match ← Program.call (.upsertSets sets) with
  | .error e => return .error e
  | .ok written =>
    let failures ← ensureIcons assets token sets
    return .ok (written, failures)

/-- The result of a batch of which so many sets were written and these icons failed. -/
def setsResult (items : List Json) (written : Nat) (failures : List String) : BatchResult :=
  { BatchResult.empty.recordFailures (faults readSet items) with
    succeeded := written - failures.length }.recordFailures failures

/-- A batch of sets is applied by applying the sets that its elements read as. -/
theorem applyBatch_sets (assets : String) (items : List Json) (token : Token) :
    applyBatch .sets assets items token = applySets assets (records readSet items) token >>= fun outcome =>
      pure (outcome.map fun p => setsResult items p.1 p.2) := by
  unfold applyBatch
  rw [readAll_eq readSet]
  refine congrArg (Program.ask _) (funext fun answer => ?_)
  cases answer with
  | error e => rfl
  | ok written =>
    exact (bind_assoc (ensureIcons assets token (records readSet items))
      (fun failures => .done (Except.ok (written, failures)))
      fun outcome : Stored (Nat × List String) => .done (outcome.map fun p => setsResult items p.1 p.2)).symm

/-! ## What is known of icons -/

/-- The icon of a set is on disk, and the catalog knows where. -/
structure HasIcon (assets code : String) (c : Catalog) (f : Dict (List UInt8)) : Prop where
  file : (f.find? (iconPath assets code)).isSome = true
  noted : ∃ r, c.setRow? code = some r ∧ r.iconPath = some (iconPath assets code)

/-- A code none of whose sets has a location for its icon. -/
def Unlocated (sets : List CardSet) (code : String) : Prop := ∀ set ∈ sets, set.code = code → set.iconUri = none

/-- What seeing to the icons of sets does: icons stay, rows stay, and a code without a location is left alone. -/
structure Enriches (assets : String) (sets : List CardSet) (c : Catalog) (f : Dict (List UInt8)) (c' : Catalog)
    (f' : Dict (List UInt8)) : Prop where
  files : ∀ code, (f.find? (iconPath assets code)).isSome = true → (f'.find? (iconPath assets code)).isSome = true
  paths : PathsKept assets c c'
  others : ∀ code, Unlocated sets code →
    c'.setRow? code = c.setRow? code ∧ f'.find? (iconPath assets code) = f.find? (iconPath assets code)

section Known

variable {assets code : String} {sets sets' : List CardSet} {c c' c'' : Catalog} {f f' f'' : Dict (List UInt8)}

theorem iconPath_inj {other : String} (h : iconPath assets code = iconPath assets other) : code = other := by
  have hchars := congrArg String.toList h
  unfold iconPath at hchars
  exact String.toList_inj.1 (by simpa using hchars)

theorem Enriches.refl (assets : String) (sets : List CardSet) (c : Catalog) (f : Dict (List UInt8)) :
    Enriches assets sets c f c f :=
  ⟨fun _ h => h, .refl assets c, fun _ _ => ⟨rfl, rfl⟩⟩

theorem Enriches.trans (h : Enriches assets sets c f c' f') (h' : Enriches assets sets c' f' c'' f'') :
    Enriches assets sets c f c'' f'' where
  files code hfile := h'.files code (h.files code hfile)
  paths := h.paths.trans h'.paths
  others code hcode := by
    obtain ⟨hrow, hfile⟩ := h.others code hcode
    obtain ⟨hrow', hfile'⟩ := h'.others code hcode
    exact ⟨hrow'.trans hrow, hfile'.trans hfile⟩

/-- An icon that is there and noted stays so. -/
theorem HasIcon.enriches (h : HasIcon assets code c f) (he : Enriches assets sets c f c' f') :
    HasIcon assets code c' f' := by
  obtain ⟨hfile, r, hrow, hpath⟩ := h
  obtain ⟨r', hrow', hpath'⟩ := he.paths code r hrow
  refine ⟨he.files code hfile, r', hrow', ?_⟩
  rcases hpath' with hsame | hnoted
  · rw [hsame, hpath]
  · exact hnoted

section Steps

variable {set : CardSet} {location : String} {s : Server}

/-- The sets of a code without a location are none of those that have one. -/
theorem Unlocated.ne (hcode : Unlocated sets code) (hset : set ∈ sets) (huri : set.iconUri = some location) :
    code ≠ set.code := by
  rintro rfl
  rw [hcode set hset rfl] at huri
  cases huri

theorem recordIcon_enriches (hset : set ∈ sets) (huri : set.iconUri = some location) :
    Enriches assets sets c f (c.recordIcon set.code (iconPath assets set.code)) f where
  files _ h := h
  paths := recordIcon_pathsKept assets set.code c
  others code hcode := by
    refine ⟨?_, rfl⟩
    rw [setRow?_recordIcon]
    cases hrow : c.setRow? code with
    | none => rfl
    | some r =>
      have hne : r.code ≠ set.code := key_of_row? hrow ▸ hcode.ne hset huri
      exact congrArg some (if_neg hne)

theorem noted_recordIcon (hrow : ∃ r, c.setRow? code = some r) (path : String) :
    ∃ r, (c.recordIcon code path).setRow? code = some r ∧ r.iconPath = some path := by
  obtain ⟨r, hrow⟩ := hrow
  have hcode : (withIcon code path r).iconPath = some path := by
    unfold withIcon
    rw [if_pos (key_of_row? hrow)]
  refine ⟨withIcon code path r, ?_, hcode⟩
  rw [setRow?_recordIcon, hrow]
  rfl

/-- A download touches no icon but its own. -/
theorem download_enriches {reply : Web.Reply} {outcome : Except (List String) Nat} {t : List Event} (hset : set ∈ sets)
    (huri : set.iconUri = some location) (h : Comes (iconPath assets set.code) f reply outcome t s) :
    Enriches assets sets c f c s.files where
  files code hfile := by
    obtain ⟨hown, hothers⟩ := h
    by_cases hpath : iconPath assets code = iconPath assets set.code
    · rw [hpath] at hfile ⊢
      cases outcome with
      | ok size =>
        obtain ⟨bytes, -, -, hbytes⟩ := hown
        rw [hbytes]
        rfl
      | error chain =>
        obtain ⟨-, hkept | ⟨hspoilt, -⟩⟩ := hown
        · rwa [hkept]
        · exact absurd hspoilt (partialPath_ne_iconPath _ _ _)
    · rwa [hothers _ hpath (partialPath_ne_iconPath _ _ _).symm]
  paths := .refl assets c
  others code hcode := by
    have hpath : iconPath assets code ≠ iconPath assets set.code := fun heq => hcode.ne hset huri (iconPath_inj heq)
    exact ⟨rfl, h.2 _ hpath (partialPath_ne_iconPath _ _ _).symm⟩

end Steps

end Known

/-! ## The questions of an icon -/

/-- The questions of a download. -/
def isFiling : Ask → Bool
  | .request _ _ _ => true
  | .makeDirectory _ => true
  | .createFile _ => true
  | .appendFile _ _ => true
  | .flushFile _ => true
  | .moveFile _ _ => true
  | _ => false

theorem download_all {asks : Ask → Prop} {location path : String} (hrequest : asks (.request location .timed none))
    (hmake : ∀ directory, Files.directoryOf path = some directory → asks (.makeDirectory directory))
    (hcreate : asks (.createFile (partialPath path))) (happend : ∀ bytes, asks (.appendFile (partialPath path) bytes))
    (hflush : asks (.flushFile (partialPath path))) (hmove : asks (.moveFile (partialPath path) path)) :
    (download location path).All asks fun _ => True := by
  refine .call hrequest fun reply => ?_
  cases reply with
  | answered status body => exact .ite (fun _ => store_all hmake hcreate happend hflush hmove location body) fun _ => trivial
  | _ => trivial

theorem download_filing (location path : String) :
    (download location path).All (fun q => isFiling q = true) fun _ => True := by
  apply download_all
  case hmake => exact fun directory _ => rfl
  case happend => exact fun bytes => rfl
  all_goals rfl

section Questions

variable {s s' : Server}

theorem filing_catalog {q : Ask} {a : q.Answer} (hq : isFiling q = true) (h : alone.answers s q a s') :
    s'.catalog = s.catalog := by
  rcases h with h | ⟨-, rfl⟩
  · cases q with
    | request =>
      obtain rfl : s' = s := h
      rfl
    | makeDirectory | createFile | appendFile | flushFile =>
      rcases deeds_filed (Option.some.inj h) with ⟨e, -, rfl⟩ | ⟨-, rfl⟩ <;> rfl
    | moveFile source target =>
      have hmove : s.moveFile source target = (a, s') := Option.some.inj h
      unfold moveFile at hmove
      split at hmove <;> cases hmove <;> rfl
    | _ => cases hq
  · rfl

theorem fileExists_answered {path : String} {there : Bool} (h : alone.answers s (.fileExists path) there s') :
    there = (s.files.find? path).isSome ∧ s' = s := by
  rcases h with h | ⟨hrefuses, -⟩
  · cases h
    exact ⟨rfl, rfl⟩
  · cases hrefuses

theorem isCancelled_answered {token : Token} {cancelled : Bool}
    (h : alone.answers s (.isCancelled token) cancelled s') : s' = s := by
  rcases h with h | ⟨hrefuses, -⟩
  · cases h
    rfl
  · cases hrefuses

/-- Where the icon of a set is, is read as the row says. -/
theorem iconPath_of_set? {c : Catalog} {now : Time.Instant} {code : String} {stored : Option StoredSet}
    (h : c.set? now code = .ok stored) : stored.bind (·.iconPath) = (c.setRow? code).bind SetRow.iconPath := by
  unfold Catalog.set? at h
  cases hrow : c.setRow? code with
  | none =>
    have hfind : c.sets.find? (·.code == code) = none := hrow
    rw [hfind] at h
    cases h
    rfl
  | some r =>
    have hfind : c.sets.find? (·.code == code) = some r := hrow
    rw [hfind] at h
    cases hcount : r.cardCount.int with
    | error kind => simp [SetRow.read, hcount, Except.map, within] at h
    | ok n =>
      simp only [SetRow.read, hcount, Except.map, within, Except.ok.injEq] at h
      rw [← h]
      rfl

theorem findSet_answered {code : String} {answer : Stored (Option StoredSet)}
    (h : alone.answers s (.findSet code) answer s') :
    s' = s ∧ ∀ stored, answer = .ok stored →
      stored.bind (·.iconPath) = (s.catalog.setRow? code).bind SetRow.iconPath := by
  rcases h with h | ⟨⟨e, he⟩, rfl⟩
  · rcases guarded_cases (Option.some.inj h) with ⟨e, he⟩ | ⟨-, hread⟩
    · cases he
      exact ⟨rfl, nofun⟩
    · cases hread
      exact ⟨rfl, fun stored hstored => iconPath_of_set? hstored⟩
  · refine ⟨rfl, fun stored hstored => ?_⟩
    rw [he] at hstored
    cases hstored

theorem recordIcon_answered {code path : String} {answer : Stored Unit}
    (h : alone.answers s (.recordIcon code path) answer s') :
    s'.files = s.files ∧ ((∃ e, answer = .error e) ∧ s'.catalog = s.catalog ∨
      answer = .ok () ∧ s'.catalog = s.catalog.recordIcon code path) := by
  rcases h with h | ⟨hrefuses, rfl⟩
  · rcases guarded_cases (Option.some.inj h) with ⟨e, he⟩ | ⟨-, hnoted⟩
    · cases he
      exact ⟨rfl, .inl ⟨⟨e, rfl⟩, rfl⟩⟩
    · cases hnoted
      exact ⟨rfl, .inr ⟨rfl, rfl⟩⟩
  · exact ⟨rfl, .inl ⟨hrefuses, rfl⟩⟩

end Questions

/-! ## One set -/

/-- A message about a set begins with its code. -/
def Names (code message : String) : Prop := ("set " ++ code ++ ": ").toList <+: message.toList

theorem names_append (code why : String) : Names code ("set " ++ code ++ ": " ++ why) := by
  unfold Names
  rw [String.toList_append (s := "set " ++ code ++ ": ")]
  exact List.prefix_append _ _

theorem names_download (code why : String) : Names code ("set " ++ code ++ ": icon download failed: " ++ why) := by
  have hwords : ": icon download failed: " = ": " ++ "icon download failed: " := by decide
  have hnames := names_append code ("icon download failed: " ++ why)
  rw [← String.append_assoc] at hnames
  rwa [hwords, ← String.append_assoc]

/-- What a set has come to: its icon is there and noted, or a message says what failed. -/
def Attended (assets : String) (set : CardSet) (outcome : Option String) (c : Catalog) (f : Dict (List UInt8)) : Prop :=
  match outcome with
  | none => set.iconUri.isSome = true → HasIcon assets set.code c f
  | some message => Names set.code message

def failure? : Except String Unit → Option String
  | .ok _ => none
  | .error message => some message

section OneSet

variable {assets : String} {sets : List CardSet} {set : CardSet} {location : String} {c : Catalog} {f : Dict (List UInt8)}
  {s : Server} {t : List Event} {live : Prop}

/-- A question that is asked while the catalog and the files are known. -/
theorem ends_call_knowing {α : Type} {q : Ask} {next : q.Answer → Program α} {post : α → List Event → Server → Prop}
    (h : s.catalog = c ∧ s.files = f) (hq : leavesDecoders q = true)
    (hnext : ∀ m a m', m.catalog = c ∧ m.files = f → alone.answers m q a m' →
      (next a).Ends alone live post (t ++ [⟨q, a⟩]) m') : (Program.call q >>= next).Ends alone live post t s :=
  ends_call (fun c' f' => c' = c ∧ f' = f) h hq hnext

/-- The end of a program while the catalog and the files are known. -/
theorem ends_pure_knowing {α : Type} {a : α} {post : α → List Event → Server → Prop} (h : s.catalog = c ∧ s.files = f)
    (hpost : ∀ s, s.catalog = c ∧ s.files = f → post a t s) : (pure a : Program α).Ends alone live post t s :=
  ends_pure (fun c' f' => c' = c ∧ f' = f) h hpost

/-- Seeing to the icon of a set. -/
abbrev Sees (assets : String) (sets : List CardSet) (set : CardSet) (c : Catalog) (f : Dict (List UInt8))
    (outcome : Except String Unit) (_ : List Event) (s : Server) : Prop :=
  Enriches assets sets c f s.catalog s.files ∧ Attended assets set (failure? outcome) s.catalog s.files

/-- An icon that is there is noted. -/
theorem noteIcon_ends (hset : set ∈ sets) (huri : set.iconUri = some location)
    (hfile : (f.find? (iconPath assets set.code)).isSome = true) (hrow : ∃ r, c.setRow? set.code = some r)
    (h : s.catalog = c ∧ s.files = f) :
    (noteIcon set.code (iconPath assets set.code)).Ends alone live (Sees assets sets set c f) t s := by
  have hkept : ∀ outcome t s, s.catalog = c ∧ s.files = f → Attended assets set (failure? outcome) c f →
      Sees assets sets set c f outcome t s := by
    rintro outcome t s ⟨rfl, rfl⟩ hattended
    exact ⟨.refl assets sets s.catalog s.files, hattended⟩
  refine ends_call_knowing h rfl fun m answer m' h hans => ?_
  obtain ⟨rfl, hfound⟩ := findSet_answered hans
  cases answer with
  | error e =>
    exact ends_pure_knowing h fun s h => hkept _ _ s h (names_append _ _)
  | ok stored =>
    dsimp only
    split
    · next hnoted =>
      refine ends_pure_knowing h fun s hs => hkept _ _ s hs fun _ => ?_
      obtain ⟨r, hrow⟩ := hrow
      rw [hfound stored rfl, h.1, hrow] at hnoted
      exact ⟨hfile, r, hrow, hnoted⟩
    · refine ends_call_knowing h rfl fun m answer m' h hans => ?_
      obtain ⟨hfiles, ⟨⟨e, rfl⟩, hcatalog⟩ | ⟨rfl, hcatalog⟩⟩ := recordIcon_answered hans
      · have hsame : m'.catalog = c ∧ m'.files = f := ⟨hcatalog.trans h.1, hfiles.trans h.2⟩
        exact ends_pure_knowing hsame fun s h => hkept _ _ s h (names_append _ _)
      · have hnoted : m'.catalog = c.recordIcon set.code (iconPath assets set.code) ∧ m'.files = f := by
          rw [hcatalog, h.1]
          exact ⟨rfl, hfiles.trans h.2⟩
        refine ends_pure_knowing hnoted ?_
        rintro s ⟨hcatalog, rfl⟩
        unfold Sees
        rw [hcatalog]
        exact ⟨recordIcon_enriches hset huri, fun _ => ⟨hfile, noted_recordIcon hrow _⟩⟩

theorem download_comes (location path : String) (h : s.catalog = c ∧ s.files = f) :
    (download location path).Ends alone live
      (fun outcome _ s => s.catalog = c ∧ ∃ reply u, Comes path f reply outcome u s) t s := by
  have hends := (downloadInPieces_ends live .whole location path h.2).behind t
  rw [← download_eq, List.append_nil] at hends
  refine (hends.frame (download_filing location path) (fun s => s.catalog = c) ?_ ?_ h.1).mono ?_
  · intro m m' hm hstir
    cases hstir <;> exact hm
  · exact fun q hq m a m' hm hans => (filing_catalog hq hans).trans hm
  · rintro outcome t s ⟨⟨v, -, reply, u, -, hcomes⟩, hcatalog⟩
    exact ⟨hcatalog, reply, u, hcomes⟩

/-- The icon of a set whose row is there. -/
theorem ensureIcon_sees (hset : set ∈ sets) (hrow : ∃ r, c.setRow? set.code = some r) (h : s.catalog = c ∧ s.files = f) :
    (ensureIcon assets set).Ends alone live (Sees assets sets set c f) t s := by
  unfold ensureIcon
  split
  · next hnone =>
    refine ends_pure_knowing h ?_
    rintro s ⟨rfl, rfl⟩
    refine ⟨.refl assets sets s.catalog s.files, fun hsome => ?_⟩
    rw [hnone] at hsome
    cases hsome
  · next location huri =>
    refine ends_call_knowing h rfl fun m there m' h hans => ?_
    obtain ⟨hthere, rfl⟩ := fileExists_answered hans
    rw [h.2] at hthere
    cases there with
    | true => exact noteIcon_ends hset huri hthere.symm hrow h
    | false =>
      refine (download_comes location _ h).bind fun outcome t s hdownload => ?_
      obtain ⟨hcatalog, reply, u, hcomes⟩ := hdownload
      have henriches : Enriches assets sets c f c s.files := download_enriches hset huri hcomes
      cases outcome with
      | error chain =>
        refine ends_pure_knowing ⟨hcatalog, rfl⟩ ?_
        rintro s ⟨rfl, hfiles⟩
        exact ⟨hfiles ▸ henriches, names_download _ _⟩
      | ok size =>
        obtain ⟨⟨bytes, -, -, hbytes⟩, -⟩ := hcomes
        have hfile : (s.files.find? (iconPath assets set.code)).isSome = true := Option.isSome_iff_exists.2 ⟨bytes, hbytes⟩
        refine (noteIcon_ends hset huri hfile hrow ⟨hcatalog, rfl⟩).mono fun outcome t s hnoted => ?_
        exact ⟨henriches.trans hnoted.1, hnoted.2⟩

end OneSet

/-! ## All sets of a batch -/

section Batch

variable {assets : String} {sets : List CardSet} {c c' : Catalog} {f f' : Dict (List UInt8)} {s : Server}
  {t : List Event} {token : Token} {live : Prop}

/-- What the sets of a batch have come to, in their order; the messages among it are the failures. -/
def AllAttended (assets : String) (sets : List CardSet) (failures : List String) (c : Catalog) (f : Dict (List UInt8)) :
    Prop :=
  ∃ outcomes, failures = outcomes.filterMap id ∧
    List.Forall₂ (fun set outcome => Attended assets set outcome c f) sets outcomes

/-- What is attended to stays so. -/
theorem Attended.enriches {set : CardSet} {outcome : Option String} (h : Attended assets set outcome c f)
    (he : Enriches assets sets c f c' f') : Attended assets set outcome c' f' := by
  cases outcome with
  | none => exact fun hsome => (h hsome).enriches he
  | some message => exact h

/-- Seeing to the icons of sets one after the other, as long as the token is not found cancelled. -/
abbrev SeesAll (assets : String) (sets todo : List CardSet) (token : Token) (c : Catalog) (f : Dict (List UInt8))
    (failures : List String) (t : List Event) (s : Server) : Prop :=
  Enriches assets sets c f s.catalog s.files ∧
    (⟨.isCancelled token, true⟩ ∉ t → AllAttended assets todo failures s.catalog s.files)

/-- The sets of a batch whose rows are there. -/
theorem ensureIcons_sees (token : Token) {todo : List CardSet} (htodo : todo ⊆ sets)
    (hrows : ∀ set ∈ todo, ∃ r, c.setRow? set.code = some r) (h : s.catalog = c ∧ s.files = f) :
    (ensureIcons assets token todo).Ends alone live (SeesAll assets sets todo token c f) t s := by
  induction todo generalizing c f t s with
  | nil =>
    refine ends_pure_knowing h ?_
    rintro s ⟨rfl, rfl⟩
    exact ⟨.refl assets sets s.catalog s.files, fun _ => ⟨[], rfl, .nil⟩⟩
  | cons set rest ih =>
    rw [List.cons_subset] at htodo
    refine ends_call_knowing h rfl fun m cancelled m' h hans => ?_
    obtain rfl := isCancelled_answered hans
    cases cancelled with
    | true =>
      refine ends_pure_knowing h ?_
      rintro s ⟨rfl, rfl⟩
      exact ⟨.refl assets sets s.catalog s.files, fun hno => absurd (List.mem_append_right t List.mem_cons_self) hno⟩
    | false =>
      have hrow := hrows set List.mem_cons_self
      refine (ensureIcon_sees htodo.1 hrow h).bind fun outcome t s ⟨henriches, hattended⟩ => ?_
      have hrows' : ∀ set ∈ rest, ∃ r, s.catalog.setRow? set.code = some r := by
        intro other hother
        obtain ⟨r, hr⟩ := hrows other (List.mem_cons_of_mem set hother)
        obtain ⟨r', hr', -⟩ := henriches.paths other.code r hr
        exact ⟨r', hr'⟩
      refine (ih htodo.2 hrows' ⟨rfl, rfl⟩).bind fun failures t s' ⟨henriches', hothers⟩ => ?_
      have hsaw : SeesAll assets sets (set :: rest) token c f ((failure? outcome).toList ++ failures) t s' := by
        refine ⟨henriches.trans henriches', fun hno => ?_⟩
        obtain ⟨outcomes, rfl, hall⟩ := hothers hno
        refine ⟨failure? outcome :: outcomes, ?_, .cons (hattended.enriches henriches') hall⟩
        cases outcome <;> rfl
      have hend : ∀ m : Server, m.catalog = s'.catalog ∧ m.files = s'.files →
          SeesAll assets sets (set :: rest) token c f ((failure? outcome).toList ++ failures) t m := by
        rintro m ⟨hcatalog, hfiles⟩
        unfold SeesAll
        rwa [hcatalog, hfiles]
      cases outcome with
      | ok u => exact ends_pure_knowing ⟨rfl, rfl⟩ hend
      | error message => exact ends_pure_knowing ⟨rfl, rfl⟩ hend

/-- Where the icon of a set is, is not changed by writing sets. -/
theorem iconPath_upsertSets (now : Time.Instant) (sets : List CardSet) (code : String) (c : Catalog) :
    ((c.upsertSets now sets).2.setRow? code).bind SetRow.iconPath = (c.setRow? code).bind SetRow.iconPath := by
  rw [setRow?_upsertSets]
  cases lastOf CardSet.code code sets with
  | none => rfl
  | some set => cases c.setRow? code <;> rfl

theorem row_of_upsertSets (now : Time.Instant) (c : Catalog) {set : CardSet} (hset : set ∈ sets) :
    ∃ r, (c.upsertSets now sets).2.setRow? set.code = some r := by
  have hlast : lastOf CardSet.code set.code sets ≠ none := fun hnone =>
    lastOf_eq_none_iff.1 hnone (List.mem_map_of_mem hset)
  rw [setRow?_upsertSets]
  obtain ⟨last, hlast⟩ := Option.ne_none_iff_exists'.1 hlast
  rw [hlast]
  exact ⟨_, rfl⟩

theorem upsertSets_answered {s' : Server} {answer : Stored Nat} (h : alone.answers s (.upsertSets sets) answer s') :
    s'.files = s.files ∧ ((∃ e, answer = .error e) ∧ s'.catalog = s.catalog ∨
      answer = .ok sets.length ∧ s'.catalog = (s.catalog.upsertSets s.clock sets).2) := by
  rcases h with h | ⟨hrefuses, rfl⟩
  · rcases guarded_cases (Option.some.inj h) with ⟨e, he⟩ | ⟨-, hwritten⟩
    · cases he
      exact ⟨rfl, .inl ⟨⟨e, rfl⟩, rfl⟩⟩
    · unfold upsert at hwritten
      dsimp only at hwritten
      split at hwritten
      · cases hwritten
        exact ⟨rfl, .inl ⟨⟨_, rfl⟩, rfl⟩⟩
      · cases hwritten
        split
        · split <;> exact ⟨rfl, .inr ⟨rfl, rfl⟩⟩
        · exact ⟨rfl, .inr ⟨rfl, rfl⟩⟩
  · exact ⟨rfl, .inl ⟨hrefuses, rfl⟩⟩

/-- What a code has of an icon: the file, and what the catalog says of it. -/
def iconOf (assets code : String) (c : Catalog) (f : Dict (List UInt8)) : Option String × Option (List UInt8) :=
  ((c.setRow? code).bind SetRow.iconPath, f.find? (iconPath assets code))

/-- What applying sets comes to. -/
def Applies (assets : String) (sets : List CardSet) (token : Token) (c : Catalog) (f : Dict (List UInt8))
    (outcome : Stored (Nat × List String)) (t : List Event) (s : Server) : Prop :=
  (∀ code, Unlocated sets code → iconOf assets code s.catalog s.files = iconOf assets code c f) ∧
    ∀ written failures, outcome = .ok (written, failures) → written = sets.length ∧
      (⟨.isCancelled token, true⟩ ∉ t → AllAttended assets sets failures s.catalog s.files)

theorem applySets_ends (token : Token) (h : s.catalog = c ∧ s.files = f) :
    (applySets assets sets token).Ends alone live (Applies assets sets token c f) t s := by
  refine ends_call_knowing h rfl fun m answer m' h hans => ?_
  obtain ⟨rfl, rfl⟩ := h
  obtain ⟨hfiles, ⟨⟨e, rfl⟩, hcatalog⟩ | ⟨rfl, hcatalog⟩⟩ := upsertSets_answered hans
  · refine ends_pure_knowing ⟨hcatalog, hfiles⟩ ?_
    rintro s ⟨hcatalog, hfiles⟩
    refine ⟨fun code _ => by rw [hcatalog, hfiles], nofun⟩
  · have hrows : ∀ set ∈ sets, ∃ r, m'.catalog.setRow? set.code = some r := by
      rw [hcatalog]
      exact fun set hset => row_of_upsertSets m.clock m.catalog hset
    refine (ensureIcons_sees token (List.Subset.refl sets) hrows ⟨rfl, rfl⟩).bind fun failures t s' hsees => ?_
    refine ends_pure_knowing ⟨rfl, rfl⟩ ?_
    rintro s ⟨hc, hf⟩
    obtain ⟨henriches, hattended⟩ := hsees
    unfold Applies
    rw [hc, hf]
    refine ⟨fun code hcode => ?_, ?_⟩
    · obtain ⟨hrow, hfile⟩ := henriches.others code hcode
      unfold iconOf
      rw [hrow, hfile, hcatalog, hfiles, iconPath_upsertSets]
    · rintro written failures heq
      cases heq
      exact ⟨rfl, hattended⟩

end Batch

/-! ## What is asked -/

/-- The questions about the icon of a set that has a location. -/
def IsForIconOf (assets : String) (set : CardSet) : Ask → Prop
  | .request location _ _ => set.iconUri = some location
  | .fileExists path => path = iconPath assets set.code
  | .makeDirectory directory => Files.directoryOf (iconPath assets set.code) = some directory
  | .createFile path => path = partialPath (iconPath assets set.code)
  | .appendFile path _ => path = partialPath (iconPath assets set.code)
  | .flushFile path => path = partialPath (iconPath assets set.code)
  | .moveFile source target => source = partialPath (iconPath assets set.code) ∧ target = iconPath assets set.code
  | .findSet code => code = set.code
  | .recordIcon code path => code = set.code ∧ path = iconPath assets set.code
  | _ => False

/-- The questions of a batch: its sets are written, and then each is about one that has a location for its icon. -/
def IsForBatch (assets : String) (sets : List CardSet) (token : Token) (q : Ask) : Prop :=
  q = .upsertSets sets ∨ q = .isCancelled token ∨ ∃ set ∈ sets, set.iconUri.isSome = true ∧ IsForIconOf assets set q

section Asks

variable {assets : String} {sets : List CardSet}

theorem ensureIcon_icon (assets : String) (set : CardSet) :
    (ensureIcon assets set).All (fun q => set.iconUri.isSome = true ∧ IsForIconOf assets set q) fun _ => True := by
  unfold ensureIcon
  split
  · trivial
  · next location huri =>
    have hsome : set.iconUri.isSome = true := by rw [huri]; rfl
    have hnote : (noteIcon set.code (iconPath assets set.code)).All
        (fun q => set.iconUri.isSome = true ∧ IsForIconOf assets set q) fun _ => True :=
      noteIcon_all ⟨hsome, rfl⟩ ⟨hsome, rfl, rfl⟩
    refine .call ⟨hsome, rfl⟩ fun there => ?_
    cases there with
    | true => exact hnote
    | false =>
      have hdownload : (download location (iconPath assets set.code)).All
          (fun q => set.iconUri.isSome = true ∧ IsForIconOf assets set q) fun _ => True :=
        download_all ⟨hsome, huri⟩ (fun _ hdirectory => ⟨hsome, hdirectory⟩) ⟨hsome, rfl⟩ (fun _ => ⟨hsome, rfl⟩) ⟨hsome, rfl⟩
          ⟨hsome, rfl, rfl⟩
      refine .bind hdownload fun outcome _ => ?_
      cases outcome with
      | error chain => trivial
      | ok size => exact hnote

theorem ensureIcons_batch (token : Token) {todo : List CardSet} (htodo : todo ⊆ sets) :
    (ensureIcons assets token todo).All (IsForBatch assets sets token) fun _ => True := by
  induction todo with
  | nil => trivial
  | cons set rest ih =>
    rw [List.cons_subset] at htodo
    refine .call (.inr (.inl rfl)) fun cancelled => ?_
    cases cancelled with
    | true => trivial
    | false =>
      have hicon : (ensureIcon assets set).All (IsForBatch assets sets token) fun _ => True :=
        (ensureIcon_icon assets set).mono (fun q hq => .inr (.inr ⟨set, htodo.1, hq⟩)) fun _ _ => trivial
      refine .bind hicon fun outcome _ => .bind (ih htodo.2) fun failures _ => ?_
      cases outcome <;> trivial

theorem applySets_batch (assets : String) (sets : List CardSet) (token : Token) :
    (applySets assets sets token).All (IsForBatch assets sets token) fun _ => True := by
  refine .call (.inl rfl) fun answer => ?_
  cases answer with
  | error e => trivial
  | ok written => exact .bind (ensureIcons_batch token (List.Subset.refl sets)) fun _ _ => trivial

end Asks

/-! ## Main theorem -/

/-- **What is not reported has its icon.** Whatever fails, a batch of sets asks only for the icons of sets that have a
location, and a code without one keeps what it has. If its sets are written and the token is not found cancelled, each set
has its icon on disk and noted at the end, or one message that begins with its code; the messages are reported in the
order of the sets. -/
theorem unreported_sets_have_icons (assets : String) (items : List Json) (token : Token) {s s' : Server} {t : List Event}
    {outcome : Stored BatchResult}
    (hrun : Reaches alone (applyBatch .sets assets items token) s t (.done outcome) s') :
    (∀ e ∈ t, IsForBatch assets (records readSet items) token e.1) ∧
      (∀ code, Unlocated (records readSet items) code →
        iconOf assets code s'.catalog s'.files = iconOf assets code s.catalog s.files) ∧
      ∀ result, outcome = .ok result → ∃ failures, result = setsResult items (records readSet items).length failures ∧
        (⟨.isCancelled token, true⟩ ∉ t → AllAttended assets (records readSet items) failures s'.catalog s'.files) := by
  rw [applyBatch_sets] at hrun
  obtain ⟨hpath, htakes⟩ := reaches_iff.1 hrun
  obtain ⟨answer, u, v, rfl, happlied, hend⟩ := hpath.of_bind_done
  obtain ⟨rfl, hdone⟩ := hend.of_done
  cases hdone
  rw [List.append_nil] at htakes ⊢
  have hends : (applySets assets (records readSet items) token).Ends alone True
      (Applies assets (records readSet items) token s.catalog s.files) [] s := applySets_ends token ⟨rfl, rfl⟩
  obtain ⟨hunlocated, hresult⟩ := (hends.reaches (reaches_iff.2 ⟨happlied, htakes⟩)).done
  refine ⟨(happlied.all (applySets_batch assets (records readSet items) token)).1, hunlocated, fun result hok => ?_⟩
  cases answer with
  | error e => cases hok
  | ok p =>
    obtain ⟨written, failures⟩ := p
    obtain ⟨rfl, hattended⟩ := hresult written failures rfl
    cases hok
    exact ⟨failures, rfl, hattended⟩

/-- The icon of a new set is there already, and is noted. -/
theorem icon_on_disk_is_noted :
    let raw : Json := .ofPairs [("code", .text "lea"), ("name", .text "Alpha"), ("icon_svg_uri", .text "u")]
    let s : Server := { clock := default, files := [("a/sets/lea.svg", [1])] }
    ∃ t s' failures, Reaches alone (applyBatch .sets "a" [raw] ⟨0⟩) s t (.done (.ok (setsResult [raw] 1 failures))) s' ∧
      AllAttended "a" (records readSet [raw]) failures s'.catalog s'.files := by
  intro raw s
  let set : CardSet := ⟨"lea", "Alpha", none, none, 0, some "u"⟩
  have hrecords : records readSet [raw] = [set] := by decide +kernel
  let t : List Event := [⟨.upsertSets [set], (.ok 1 : Stored Nat)⟩, ⟨.isCancelled ⟨0⟩, false⟩,
    ⟨.fileExists "a/sets/lea.svg", true⟩, ⟨.findSet "lea", ((s.catalog.upsertSets s.clock [set]).2.set? s.clock "lea")⟩,
    ⟨.recordIcon "lea" "a/sets/lea.svg", (.ok () : Stored Unit)⟩]
  have hrun : ∃ s', Reaches alone (applyBatch .sets "a" [raw] ⟨0⟩) s t (.done (.ok (setsResult [raw] 1 []))) s' := by
    rw [applyBatch_sets, hrecords]
    exact ⟨_, .answer (.inl rfl) <| .answer (.inl rfl) <| .answer (.inl rfl) <| .answer (.inl rfl) <|
      .answer (.inl rfl) <| .start _ _⟩
  obtain ⟨s', hrun⟩ := hrun
  obtain ⟨-, -, hresult⟩ := unreported_sets_have_icons "a" [raw] ⟨0⟩ hrun
  obtain ⟨failures, hfailures, hattended⟩ := hresult _ rfl
  have hcancelled : (⟨.isCancelled ⟨0⟩, true⟩ : Event) ∉ t := by
    simp only [t, List.mem_cons, List.not_mem_nil, or_false, not_or]
    exact ⟨nofun, nofun, nofun, nofun, nofun⟩
  rw [hrecords] at hfailures
  rw [hfailures] at hrun
  exact ⟨t, s', failures, hrun, hattended hcancelled⟩

end CatalogSync.Import
