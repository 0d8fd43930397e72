import CatalogSync.Import.Tracked
import CatalogSync.Proofs.Import.Enriching

/-!
# Where an import writes

The code of a set becomes the name of a file. It holds no slash and no dot, so that the icon and the partial file of a set
lie directly in the folder of the icons, and those of another set are other files.

Main statement: `import_writes_to_own_files`. Whatever a feed holds, an import changes no other file.
-/

namespace CatalogSync.Import

open CatalogSync.Catalog CatalogSync.Text

/-! ## Entries of a folder -/

/-- A name that stands for an entry of a folder. -/
structure IsEntry (name : String) : Prop where
  some : name ≠ ""
  flat : '/' ∉ name.toList
  notHere : name ≠ "."
  notUp : name ≠ ".."

/-- A path leads to an entry of a folder, directly. -/
def LiesIn (folder path : String) : Prop := ∃ name, IsEntry name ∧ path = Files.join folder name

theorem join_entry {folder name : String} (hname : '/' ∉ name.toList)
    (hfolder : folder.toList.getLast?.all (· = '/') = false) : Files.join folder name = folder ++ "/" ++ name := by
  have hrelative : name.toList.head? ≠ some '/' := fun h => hname (List.mem_of_mem_head? h)
  unfold Files.join
  rw [if_neg hrelative, hfolder, if_neg Bool.false_ne_true]

section Until

variable {c : Char} {cs rest : List Char}

theorem takeWhile_until (h : c ∉ cs) : (cs ++ c :: rest).takeWhile (· ≠ c) = cs := by
  have hall : ∀ d ∈ cs, decide (d ≠ c) = true := fun d hd => decide_eq_true (ne_of_mem_of_not_mem hd h)
  rw [List.takeWhile_append_of_pos hall, List.takeWhile_cons_of_neg (by simp), List.append_nil]

theorem dropWhile_until (h : c ∉ cs) : (cs ++ c :: rest).dropWhile (· ≠ c) = c :: rest := by
  have hall : ∀ d ∈ cs, decide (d ≠ c) = true := fun d hd => decide_eq_true (ne_of_mem_of_not_mem hd h)
  rw [List.dropWhile_append_of_pos hall, List.dropWhile_cons_of_neg (by simp)]

end Until

/-- Every character at the end of a text is one that names something there. -/
def EndsNamed (cs : List Char) : Prop := ∀ c ∈ cs.getLast?, c ≠ '/' ∧ c ≠ '.'

theorem EndsNamed.dropUnnamed_reverse {cs : List Char} (h : EndsNamed cs) :
    Files.dropUnnamed cs.reverse = cs.reverse := by
  cases hcs : cs.reverse with
  | nil => rfl
  | cons c r =>
    have hlast : cs.getLast? = some c := by rw [← List.head?_reverse, hcs]; rfl
    obtain ⟨hslash, hdot⟩ := h c hlast
    exact Files.dropUnnamed_named hslash hdot

theorem EndsNamed.behind {cs : List Char} (h : EndsNamed cs) (hcs : cs ≠ []) (front : List Char) :
    EndsNamed (front ++ cs) := by
  intro c hc
  rw [List.getLast?_append_of_ne_nil _ hcs] at hc
  exact h c hc

theorem reverse_entry (folder name : String) :
    (folder ++ "/" ++ name).toList.reverse = name.toList.reverse ++ '/' :: folder.toList.reverse := by
  have hsign : "/".toList = ['/'] := by decide
  simp only [String.toList_append, hsign, List.reverse_append, List.reverse_cons, List.reverse_nil, List.nil_append,
    List.cons_append]

/-- The ending of an entry is replaced, and all else stays. -/
theorem withEnding_entry {stem ending : String} (hstem : stem ≠ "") (hslash : '/' ∉ stem.toList) (hending : ending ≠ "")
    (hdot : '.' ∉ ending.toList) (hflat : '/' ∉ ending.toList) (folder new : String) :
    Files.withEnding (folder ++ "/" ++ (stem ++ "." ++ ending)) new = folder ++ "/" ++ (stem ++ "." ++ new) := by
  have hpoint : ".".toList = ['.'] := by decide
  have hentry : (stem ++ "." ++ ending).toList.reverse = ending.toList.reverse ++ '.' :: stem.toList.reverse := by
    simp only [String.toList_append, hpoint, List.reverse_append, List.reverse_cons, List.reverse_nil, List.nil_append,
      List.cons_append]
  have hlast : EndsNamed (folder ++ "/" ++ (stem ++ "." ++ ending)).toList := by
    have hnamed : EndsNamed ending.toList := fun c hc =>
      ⟨ne_of_mem_of_not_mem (List.mem_of_getLast? hc) hflat, ne_of_mem_of_not_mem (List.mem_of_getLast? hc) hdot⟩
    have hsome : ending.toList ≠ [] := fun h => hending (String.toList_eq_nil_iff.1 h)
    rw [String.toList_append, String.toList_append (s := stem ++ "."), ← List.append_assoc]
    exact hnamed.behind hsome _
  have hname : '/' ∉ ending.toList.reverse ++ '.' :: stem.toList.reverse := by
    rw [List.mem_append, List.mem_cons, List.mem_reverse, List.mem_reverse]
    rintro (h | h | h)
    · exact hflat h
    · exact absurd h (by decide)
    · exact hslash h
  have hfile : Files.isFileName (ending.toList.reverse ++ '.' :: stem.toList.reverse) = true := by
    have hlength : 2 < (ending.toList.reverse ++ '.' :: stem.toList.reverse).length := by
      have hfront : 0 < stem.toList.length := List.length_pos_iff.2 fun h => hstem (String.toList_eq_nil_iff.1 h)
      have hback : 0 < ending.toList.length := List.length_pos_iff.2 fun h => hending (String.toList_eq_nil_iff.1 h)
      rw [List.length_append, List.length_cons, List.length_reverse, List.length_reverse]
      omega
    unfold Files.isFileName
    rw [Bool.and_eq_true, Bool.not_eq_true', List.isEmpty_eq_false_iff, bne_iff_ne]
    exact ⟨List.ne_nil_of_length_pos (by omega), fun heq => absurd (heq ▸ hlength) (by decide)⟩
  have hdots : '.' ∉ ending.toList.reverse := fun h => hdot (List.mem_reverse.1 h)
  have hsome : stem.toList.reverse.isEmpty = false := by
    rw [List.isEmpty_eq_false_iff, ne_eq, List.reverse_eq_nil_iff, String.toList_eq_nil_iff]
    exact hstem
  unfold Files.withEnding Files.lastName
  dsimp only
  rw [hlast.dropUnnamed_reverse, reverse_entry, hentry, takeWhile_until hname, if_pos hfile, dropWhile_until hdots,
    List.drop_left, List.drop_succ_cons, List.drop_zero, hsome, if_neg Bool.false_ne_true, ← String.toList_inj]
  simp [List.append_assoc]

/-- The folder of an entry. -/
theorem directoryOf_entry {name folder : String} (hname : name ≠ "") (hflat : '/' ∉ name.toList)
    (hends : EndsNamed name.toList) (hfolder : folder ≠ "") (hnamed : EndsNamed folder.toList) :
    Files.directoryOf (folder ++ "/" ++ name) = some folder := by
  have hsome : name.toList ≠ [] := fun h => hname (String.toList_eq_nil_iff.1 h)
  have hlast : EndsNamed (folder ++ "/" ++ name).toList := by
    rw [String.toList_append]
    exact hends.behind hsome _
  have hreversed : '/' ∉ name.toList.reverse := fun h => hflat (List.mem_reverse.1 h)
  have habove : Files.dropUnnamed ('/' :: folder.toList.reverse) = folder.toList.reverse := by
    rw [Files.dropUnnamed]
    exact hnamed.dropUnnamed_reverse
  have hnonempty : (name.toList.reverse ++ '/' :: folder.toList.reverse).isEmpty = false := by
    rw [List.isEmpty_eq_false_iff]
    exact List.append_ne_nil_of_right_ne_nil _ (List.cons_ne_nil _ _)
  have hkept : folder.toList.reverse.isEmpty = false := by
    rw [List.isEmpty_eq_false_iff, ne_eq, List.reverse_eq_nil_iff, String.toList_eq_nil_iff]
    exact hfolder
  unfold Files.directoryOf
  dsimp only
  rw [hlast.dropUnnamed_reverse, reverse_entry, hnonempty, if_neg Bool.false_ne_true, dropWhile_until hreversed, habove,
    hkept, if_neg Bool.false_ne_true, List.reverse_reverse, String.ofList_toList]

/-! ## The files of a set -/

def iconFolder (assets : String) : String := Files.join assets "sets"

/-- The files of a set: its icon and the partial file of that. -/
def setFiles (assets code : String) : List String := [iconPath assets code, partialPath (iconPath assets code)]

section Codes

variable {code other : String} {c d : Char}

theorem not_mem_of_isSafeCode (h : isSafeCode code = true) (hd : isCodeChar d = false) : d ∉ code.toList := by
  unfold isSafeCode at h
  rw [Bool.and_eq_true, List.all_eq_true] at h
  intro hmem
  exact Bool.false_ne_true (hd.symm.trans (h.2 d hmem))

theorem ne_empty_of_isSafeCode (h : isSafeCode code = true) : code ≠ "" := by
  rintro rfl
  exact absurd h (by decide)

/-- What reads as a set has a safe code. -/
theorem isSafeCode_of_readSet {v : Json} {s : CardSet} (h : readSet v = .ok s) : isSafeCode s.code = true := by
  unfold readSet at h
  split at h
  · split at h
    · next hsafe =>
      cases h
      exact hsafe
    · cases h
  · cases h

end Codes

section Files

variable {assets code other path ending : String}

theorem getLast_iconFolder (assets : String) : (iconFolder assets).toList.getLast? = some 's' := by
  have hsets : "sets".toList = ['s', 'e', 't', 's'] := by decide
  unfold iconFolder Files.join
  rw [if_neg (by decide)]
  split <;> rw [String.toList_append, hsets, List.getLast?_append] <;> rfl

theorem isEntry_of_isSafeCode (h : isSafeCode code = true) (hending : ending ∈ ["svg", "part"]) :
    IsEntry (code ++ "." ++ ending) := by
  have hflat : '/' ∉ ending.toList ∧ 1 < ending.toList.length := by
    revert ending
    decide
  have hlength : 2 < (code ++ "." ++ ending).toList.length := by
    have hdot : ".".toList.length = 1 := by decide
    rw [String.toList_append, String.toList_append, List.length_append, List.length_append, hdot]
    omega
  refine ⟨?_, ?_, ?_, ?_⟩
  · intro heq
    exact absurd (heq ▸ hlength) (by decide)
  · rw [String.toList_append, String.toList_append, List.mem_append, List.mem_append]
    rintro ((hmem | hmem) | hmem)
    · exact not_mem_of_isSafeCode h (by decide) hmem
    · exact absurd hmem (by decide)
    · exact hflat.1 hmem
  · intro heq
    exact absurd (heq ▸ hlength) (by decide)
  · intro heq
    exact absurd (heq ▸ hlength) (by decide)

theorem join_iconFolder (h : isSafeCode code = true) (hending : ending ∈ ["svg", "part"]) :
    Files.join (iconFolder assets) (code ++ "." ++ ending) = iconFolder assets ++ "/" ++ (code ++ "." ++ ending) := by
  refine join_entry (isEntry_of_isSafeCode h hending).flat ?_
  rw [getLast_iconFolder]
  rfl

theorem iconPath_eq (assets code : String) :
    iconPath assets code = iconFolder assets ++ "/" ++ (code ++ "." ++ "svg") := by
  have hsvg : ".svg" = "." ++ "svg" := by decide
  unfold iconPath iconFolder
  rw [hsvg, ← String.append_assoc, ← String.append_assoc, ← String.append_assoc]

theorem partialPath_eq (h : isSafeCode code = true) :
    partialPath (iconPath assets code) = iconFolder assets ++ "/" ++ (code ++ "." ++ "part") := by
  rw [iconPath_eq]
  exact withEnding_entry (ne_empty_of_isSafeCode h) (not_mem_of_isSafeCode h (by decide)) (by decide) (by decide)
    (by decide) _ _

theorem directoryOf_iconPath (h : isSafeCode code = true) :
    Files.directoryOf (iconPath assets code) = some (iconFolder assets) := by
  have hentry := isEntry_of_isSafeCode h (List.mem_cons_self : "svg" ∈ ["svg", "part"])
  have hends : EndsNamed (code ++ "." ++ "svg").toList := by
    have hsvg : "svg".toList = ['s', 'v', 'g'] := by decide
    intro c hc
    rw [String.toList_append, hsvg, List.getLast?_append] at hc
    cases hc
    decide
  have hfolder : EndsNamed (iconFolder assets).toList := by
    intro c hc
    rw [getLast_iconFolder] at hc
    cases hc
    decide
  have hsome : iconFolder assets ≠ "" := by
    intro h
    have hlast := getLast_iconFolder assets
    rw [h] at hlast
    cases hlast
  rw [iconPath_eq]
  exact directoryOf_entry hentry.some hentry.flat hends hsome hfolder

/-- A file of a set is named by the code of the set. -/
theorem named_of_mem_setFiles (h : isSafeCode code = true) (hpath : path ∈ setFiles assets code) :
    ∃ ending ∈ ["svg", "part"], path = Files.join (iconFolder assets) (code ++ "." ++ ending) := by
  unfold setFiles at hpath
  rw [List.mem_pair] at hpath
  obtain rfl | rfl := hpath
  · have hending : "svg" ∈ ["svg", "part"] := List.mem_cons_self
    exact ⟨"svg", hending, (iconPath_eq assets code).trans (join_iconFolder h hending).symm⟩
  · have hending : "part" ∈ ["svg", "part"] := List.mem_cons_of_mem _ List.mem_cons_self
    exact ⟨"part", hending, (partialPath_eq h).trans (join_iconFolder h hending).symm⟩

/-- The code of a set is told by each of its files: it ends before the first dot. -/
theorem code_of_mem_setFiles (h : isSafeCode code = true) (hother : isSafeCode other = true)
    (hpath : path ∈ setFiles assets code) (hsame : path ∈ setFiles assets other) : code = other := by
  obtain ⟨ending, hending, rfl⟩ := named_of_mem_setFiles h hpath
  obtain ⟨ending', hending', heq⟩ := named_of_mem_setFiles hother hsame
  rw [join_iconFolder h hending, join_iconFolder hother hending'] at heq
  have hdot : ".".toList = ['.'] := by decide
  have hchars : code.toList ++ '.' :: ending.toList = other.toList ++ '.' :: ending'.toList := by
    simpa [hdot] using congrArg String.toList heq
  have hstem := congrArg (List.takeWhile (· ≠ '.')) hchars
  rw [takeWhile_until (not_mem_of_isSafeCode h (by decide)),
    takeWhile_until (not_mem_of_isSafeCode hother (by decide))] at hstem
  exact String.toList_inj.1 hstem

end Files

/-! ## What is written -/

/-- A question changes no file but the icons of some codes and their partial files, and makes no folder but theirs. -/
def WritesOnly (assets : String) (codes : String → Prop) : Ask → Prop
  | .makeDirectory path => path = iconFolder assets
  | .createFile path => ∃ code, codes code ∧ path = partialPath (iconPath assets code)
  | .appendFile path _ => ∃ code, codes code ∧ path = partialPath (iconPath assets code)
  | .flushFile path => ∃ code, codes code ∧ path = partialPath (iconPath assets code)
  | .moveFile source target =>
    ∃ code, codes code ∧ source = partialPath (iconPath assets code) ∧ target = iconPath assets code
  | _ => True

/-- A record of a batch is what one of its elements reads as. -/
theorem read_of_mem_records {α : Type} {read : Json → Except String α} {items : List Json} {a : α}
    (h : a ∈ records read items) : ∃ v, read v = .ok a := by
  obtain ⟨v, -, hv⟩ := List.mem_filterMap.1 h
  refine ⟨v, ?_⟩
  cases hread : read v with
  | ok b =>
    rw [hread] at hv
    cases hv
    rfl
  | error message =>
    rw [hread] at hv
    cases hv

/-- A code that a set of a feed can have. -/
def IsRead (code : String) : Prop := ∃ v s, readSet v = .ok s ∧ s.code = code

section Writing

variable {assets : String} {codes : String → Prop} {set : CardSet} {q : Ask}

theorem writesOnly_of_changesFiles (h : changesFiles q = false) : WritesOnly assets codes q := by
  cases q <;> trivial

theorem writesOnly_of_isForIconOf (h : isSafeCode set.code = true) (hcodes : codes set.code)
    (hq : IsForIconOf assets set q) : WritesOnly assets codes q := by
  cases q with
  | makeDirectory path =>
    have hdirectory : Files.directoryOf (iconPath assets set.code) = some path := hq
    rw [directoryOf_iconPath h] at hdirectory
    exact (Option.some.inj hdirectory).symm
  | createFile path => exact ⟨set.code, hcodes, hq⟩
  | appendFile path bytes => exact ⟨set.code, hcodes, hq⟩
  | flushFile path => exact ⟨set.code, hcodes, hq⟩
  | moveFile source target => exact ⟨set.code, hcodes, hq⟩
  | _ => trivial

theorem ensureIcon_writes (h : isSafeCode set.code = true) :
    (ensureIcon assets set).All (WritesOnly assets (· = set.code)) fun _ => True :=
  (ensureIcon_icon assets set).mono (fun _ hq => writesOnly_of_isForIconOf h rfl hq.2) fun _ _ => trivial

theorem applyBatch_writes (dataset : Dataset) (assets : String) (items : Feed.Batch) (token : Token) :
    (applyBatch dataset assets items token).All (WritesOnly assets IsRead) fun _ => True := by
  cases dataset with
  | cards =>
    refine .call trivial fun answer => ?_
    cases answer <;> trivial
  | sets =>
    rw [applyBatch_sets]
    refine .bind ((applySets_batch assets _ token).mono (fun q hq => ?_) fun _ h => h) fun _ _ => .pure trivial
    obtain rfl | rfl | ⟨set, hset, -, hicon⟩ := hq
    · trivial
    · trivial
    · obtain ⟨v, hread⟩ := read_of_mem_records hset
      exact writesOnly_of_isForIconOf (isSafeCode_of_readSet hread) ⟨v, set, hread, rfl⟩ hicon

theorem import_writes (setup : Setup) (dataset : Dataset) (job : Int) (token : Token) :
    (downloadAndImport setup dataset job token).All (WritesOnly setup.assets IsRead) fun _ => True := by
  have hallows : Allows (WritesOnly setup.assets IsRead) setup dataset job token :=
    ⟨fun _ _ hq => writesOnly_of_changesFiles hq, fun items => applyBatch_writes dataset setup.assets items token⟩
  have hlocked : (underLock dataset (importNow setup dataset job token)).All (WritesOnly setup.assets IsRead) fun _ =>
      True := by
    refine .call trivial fun free => ?_
    cases free with
    | false => exact .pure trivial
    | true => exact .bind (importNow_allowed hallows trivial trivial) fun _ _ => .call trivial fun _ => .pure trivial
  refine .call trivial fun started => .bind hlocked fun outcome _ => .call trivial fun stopped => ?_
  refine .bind (settle_all ?_ ?_ ?_ ?_ ?_ ?_ ?_ outcome _) fun _ _ => .pure trivial
  all_goals intros; trivial

end Writing

/-! ## Main theorem -/

/-- **Sets keep to their own files.** Whatever a feed holds, and whatever the answers are: the icon of a set and its partial
file lie directly in the folder of the icons; sets of different codes have no file in common; seeing to the icon of a set
changes the files of this set only; and an import changes no files but those of sets it has read. -/
theorem import_writes_to_own_files (setup : Setup) :
    (∀ v s, readSet v = .ok s →
      iconPath setup.assets s.code = Files.join (Files.join setup.assets "sets") (s.code ++ ".svg") ∧
      partialPath (iconPath setup.assets s.code) = Files.join (Files.join setup.assets "sets") (s.code ++ ".part") ∧
      (∀ path ∈ setFiles setup.assets s.code, LiesIn (Files.join setup.assets "sets") path) ∧
      (ensureIcon setup.assets s).All (WritesOnly setup.assets (· = s.code)) fun _ => True) ∧
    (∀ v s v' s', readSet v = .ok s → readSet v' = .ok s' → s.code ≠ s'.code →
      (setFiles setup.assets s.code).Disjoint (setFiles setup.assets s'.code)) ∧
    ∀ dataset job token,
      (downloadAndImport setup dataset job token).All (WritesOnly setup.assets IsRead) fun _ => True := by
  refine ⟨fun v s hread => ?_, fun v s v' s' hread hread' hcodes path hpath hpath' => ?_, import_writes setup⟩
  · have hsafe := isSafeCode_of_readSet hread
    have hsvg : "svg" ∈ ["svg", "part"] := List.mem_cons_self
    have hpart : "part" ∈ ["svg", "part"] := List.mem_cons_of_mem _ List.mem_cons_self
    have hdot : ∀ ending, s.code ++ "." ++ ending = s.code ++ ("." ++ ending) := fun _ => String.append_assoc ..
    refine ⟨?_, ?_, fun path hpath => ?_, ensureIcon_writes hsafe⟩
    · rw [iconPath_eq, ← join_iconFolder hsafe hsvg, hdot]
      rfl
    · rw [partialPath_eq hsafe, ← join_iconFolder hsafe hpart, hdot]
      rfl
    · obtain ⟨ending, hending, rfl⟩ := named_of_mem_setFiles hsafe hpath
      exact ⟨_, isEntry_of_isSafeCode hsafe hending, rfl⟩
  · exact hcodes (code_of_mem_setFiles (isSafeCode_of_readSet hread) (isSafeCode_of_readSet hread') hpath hpath')

/-- Two sets of a feed, one told as an object and one as an array, have files apart. -/
theorem alpha_and_beta_write_apart :
    (setFiles "a" "lea").Disjoint (setFiles "a" "leb") ∧
      ∀ path ∈ setFiles "a" "lea", LiesIn (Files.join "a" "sets") path := by
  have halpha : readSet (.object [("code", .text "lea"), ("name", .text "Alpha")]) =
      .ok { code := "lea", name := "Alpha", setType := none, releasedAt := none, cardCount := 0, iconUri := none } := by
    decide +kernel
  have hbeta : readSet (.array [.text "leb", .text "Beta", .null, .null, .int 3, .null]) =
      .ok { code := "leb", name := "Beta", setType := none, releasedAt := none, cardCount := 3, iconUri := none } := by
    decide +kernel
  obtain ⟨hfiles, hapart, -⟩ := import_writes_to_own_files { assets := "a" }
  have hdisjoint := hapart _ _ _ _ halpha hbeta (by decide)
  obtain ⟨-, -, hlie, -⟩ := hfiles _ _ halpha
  exact ⟨hdisjoint, hlie⟩

end CatalogSync.Import
