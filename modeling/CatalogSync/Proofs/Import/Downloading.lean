import CatalogSync.Import.Icon
import CatalogSync.Proofs.Server.Deeds

/-!
# Downloads

The body of a download may come in pieces, and the connection may break before or after any of them; every file
operation may be refused. `downloadInPieces` writes the pieces as they come; `download_eq` says that a download is one
whose body comes in one piece.

Main statement: `download_is_whole_or_nothing`. A download that succeeds leaves the whole body, whatever partial file
was left behind before; one that fails leaves what was there, short of a destination that is its own partial file.
-/

namespace CatalogSync.Import

open CatalogSync.Server CatalogSync.Text

/-! ## Pieces -/

/-- A way in which the bytes of bodies come in pieces. -/
structure Cutting where
  pieces : Feed.Source → List (List UInt8)
  flatten_pieces : ∀ body, (pieces body).flatten = body.bytes

/-- All bytes of a body in one piece. -/
def Cutting.whole : Cutting := ⟨fun body => [body.bytes], fun _ => List.flatten_singleton⟩

/-- Appends pieces to a file, until one is refused. -/
def appendPieces (path : String) : List (List UInt8) → Program (Filed Unit)
  | [] => return .ok ()
  | piece :: rest => do
    match ← Program.call (.appendFile path piece) with
    | .error e => return .error e
    | .ok () => appendPieces path rest

/-- Moves the partial file of a path into place. -/
def moveInPlace (path : String) (size : Nat) : Program (Except (List String) Nat) := do
  match ← Program.call (.moveFile (partialPath path) path) with
  | .error e => return .error ["Failed to move download into " ++ quotedPath path, e]
  | .ok () => return .ok size

/-- Moves the partial file of a path into place, if it holds the whole body. -/
def putInPlace (location path : String) (body : Feed.Source) : Program (Except (List String) Nat) := do
  match body.ending with
  | .closed =>
    match ← Program.call (.flushFile (partialPath path)) with
    | .error e => return .error ["Failed to flush file", e]
    | .ok () => moveInPlace path body.bytes.length
  | .broken reason => return .error ["Failed to read body of " ++ location, reason]
  | .stalled => return .error ["Failed to read body of " ++ location, Web.timedOut]

/-- Writes a body to the partial file of a path, piece by piece, and moves it into place. -/
def storeInPieces (c : Cutting) (location path : String) (body : Feed.Source) :
    Program (Except (List String) Nat) := do
  match ← makeDirectoryOf path with
  | .error e => return .error ["Failed to create parent directories", e]
  | .ok () =>
    match ← Program.call (.createFile (partialPath path)) with
    | .error e => return .error ["Failed to create destination file", e]
    | .ok () =>
      match ← appendPieces (partialPath path) (c.pieces body) with
      | .error e => return .error ["Failed to write to file", e]
      | .ok () => putInPlace location path body

/-- Brings what is at a location to a path, as it comes in pieces. -/
def downloadInPieces (c : Cutting) (location path : String) : Program (Except (List String) Nat) := do
  match ← Program.call (.request location .timed none) with
  | .failed chain => return .error (("Failed to connect to " ++ location) :: chain)
  | .none => return .error ["Failed to connect to " ++ location, Web.timedOut]
  | .cancelled => return .error ["Failed to connect to " ++ location, Web.timedOut]
  | .answered status body =>
    if Web.isSuccess status then storeInPieces c location path body
    else return .error ["Download of " ++ location ++ " failed with status: " ++ Web.statusText status]

theorem store_eq (location path : String) (body : Feed.Source) :
    store location path body = storeInPieces .whole location path body := by
  refine congrArg (makeDirectoryOf path >>= ·) (funext fun made => ?_)
  cases made with
  | error e => rfl
  | ok u =>
    refine congrArg (Program.ask _) (funext fun created => ?_)
    cases created with
    | error e => rfl
    | ok u =>
      refine congrArg (Program.ask _) (funext fun appended => ?_)
      cases appended <;> rfl

/-- A download is one whose body comes in one piece. -/
theorem download_eq (location path : String) : download location path = downloadInPieces .whole location path := by
  refine congrArg (Program.ask _) (funext fun reply => ?_)
  cases reply with
  | answered status body => exact if_congr Iff.rfl (store_eq location path body) rfl
  | _ => rfl

/-! ## Files while a body comes in -/

/-- The partial file holds what has come in, and the other files are as they were. -/
structure Filling (files : Dict (List UInt8)) (part : String) (kept : List UInt8) (files' : Dict (List UInt8)) :
    Prop where
  filled : files'.find? part = some kept
  others : ∀ other, other ≠ part → files'.find? other = files.find? other

section Filling

variable {files files' : Dict (List UInt8)} {part path : String} {kept : List UInt8}

/-- A partial file that was left behind is emptied. -/
theorem Filling.start (files : Dict (List UInt8)) (part : String) : Filling files part [] (files.put part []) :=
  ⟨Dict.find?_put_self _ _ _, fun _ hother => Dict.find?_put_of_ne _ _ hother⟩

theorem Filling.append (h : Filling files part kept files') (piece : List UInt8) :
    Filling files part (kept ++ piece) (files'.put part ((files'.find? part).getD [] ++ piece)) := by
  constructor
  · rw [Dict.find?_put_self, h.filled]
    rfl
  · intro other hother
    rw [Dict.find?_put_of_ne _ _ hother]
    exact h.others other hother

/-- The partial file is moved into place. -/
theorem Filling.move {files'' : Dict (List UInt8)} (h : Filling files part kept files')
    (hmoved : files'' = Dict.put (files'.filter fun (p, _) => p ≠ part) path kept) :
    files''.find? path = some kept ∧
      ∀ other, other ≠ path → other ≠ part → files''.find? other = files.find? other := by
  subst hmoved
  refine ⟨Dict.find?_put_self _ _ _, fun other hpath hpart => ?_⟩
  rw [Dict.find?_put_of_ne _ _ hpath, Dict.find?_filter_of_ne _ hpart]
  exact h.others other hpart

end Filling

/-! ## What a download comes to -/

/-- The whole body of a reply that is a success. -/
def wholeBody? : Web.Reply → Option (List UInt8)
  | .answered status ⟨bytes, .closed⟩ => if Web.isSuccess status then some bytes else none
  | _ => none

theorem wholeBody?_answered (status : Nat) (body : Feed.Source) :
    wholeBody? (.answered status body) =
      if Web.isSuccess status = true ∧ body.ending = .closed then some body.bytes else none := by
  obtain ⟨bytes, ending⟩ := body
  cases ending <;> simp [wholeBody?]

/-- A file operation that was refused. -/
def IsFileRefused : Event → Prop
  | ⟨.makeDirectory _, .error _⟩ => True
  | ⟨.createFile _, .error _⟩ => True
  | ⟨.appendFile _ _, .error _⟩ => True
  | ⟨.flushFile _, .error _⟩ => True
  | ⟨.moveFile _ _, .error _⟩ => True
  | _ => False

/-- The destination is its own partial file and holds the beginning of the body that came in. -/
def IsSpoilt (path : String) (reply : Web.Reply) (files' : Dict (List UInt8)) : Prop :=
  partialPath path = path ∧
    ∃ status body kept, reply = .answered status body ∧ kept <+: body.bytes ∧ files'.find? path = some kept

/-- What has become of a download: a success tells the size of the whole body, which is at the destination; a failure
has a cause and leaves the destination as it was, unless it is spoilt. -/
def Becomes (path : String) (files : Dict (List UInt8)) (reply : Web.Reply) (t : List Event) (files' : Dict (List UInt8)) :
    Except (List String) Nat → Prop
  | .ok size => ∃ bytes, wholeBody? reply = some bytes ∧ size = bytes.length ∧ files'.find? path = some bytes
  | .error _ => (wholeBody? reply = none ∨ ∃ e ∈ t, IsFileRefused e) ∧
      (files'.find? path = files.find? path ∨ IsSpoilt path reply files')

/-- The files that a download has nothing to do with are as they were. -/
def OthersKept (path : String) (files files' : Dict (List UInt8)) : Prop :=
  ∀ other, other ≠ path → other ≠ partialPath path → files'.find? other = files.find? other

/-- What a download comes to after a reply, by the files before and after it. -/
abbrev Comes (path : String) (files : Dict (List UInt8)) (reply : Web.Reply) (outcome : Except (List String) Nat)
    (t : List Event) (s : Server) : Prop :=
  Becomes path files reply t s.files outcome ∧ OthersKept path files s.files

section Runs

variable {files : Dict (List UInt8)} {part path location : String} {kept : List UInt8} {body : Feed.Source} {status : Nat}
  {s : Server} {t : List Event} {live : Prop}

/-- The files after a question and its answer. -/
theorem files_answered {s' : Server} {q : Ask} {a : q.Answer} (hq : keepsJobs q = true) (h : alone.answers s q a s') :
    s'.files = ((s.deeds 0).after 0 ⟨q, a⟩).files := congrArg Deeds.files (alone_deeds hq h)

/-- A question, with what is known of the catalog and the files when it is asked. -/
theorem ends_call {α : Type} {q : Ask} {f : q.Answer → Program α} {post : α → List Event → Server → Prop}
    (K : Catalog → Dict (List UInt8) → Prop) (hK : K s.catalog s.files) (hq : leavesDecoders q = true)
    (h : ∀ m a m', K m.catalog m.files → alone.answers m q a m' → (f a).Ends alone live post (t ++ [⟨q, a⟩]) m') :
    (Program.call q >>= f).Ends alone live post t s := by
  refine Program.Ends.call (fun s => K s.catalog s.files) hK ?_ ?_ h
  · intro m m' hm hstir
    cases hstir <;> exact hm
  · intro _ m _
    obtain ⟨a, m', hans⟩ := answered hq m
    exact ⟨m, a, m', .refl m, .inl hans⟩

/-- The end of a program, with what is known of the catalog and the files then. -/
theorem ends_pure {α : Type} {a : α} {post : α → List Event → Server → Prop} (K : Catalog → Dict (List UInt8) → Prop)
    (hK : K s.catalog s.files) (h : ∀ s, K s.catalog s.files → post a t s) :
    (pure a : Program α).Ends alone live post t s := by
  refine Program.Ends.pure (fun s => K s.catalog s.files) hK ?_ h
  intro m m' hm hstir
  cases hstir <;> exact hm

theorem refused_last (q : Ask) (a : q.Answer) (h : IsFileRefused ⟨q, a⟩) (t : List Event) :
    ∃ e ∈ t ++ [⟨q, a⟩], IsFileRefused e :=
  ⟨⟨q, a⟩, List.mem_append_right t (List.mem_singleton_self _), h⟩

/-- Pieces come in behind what has come in before, all of them unless one is refused. -/
theorem appendPieces_ends (pieces : List (List UInt8)) (h : Filling files part kept s.files) :
    (appendPieces part pieces).Ends alone live
      (fun outcome t s =>
        match outcome with
        | .ok _ => Filling files part (kept ++ pieces.flatten) s.files
        | .error _ => (∃ e ∈ t, IsFileRefused e) ∧
            ∃ more, more <+: pieces.flatten ∧ Filling files part (kept ++ more) s.files) t s := by
  induction pieces generalizing kept t s with
  | nil =>
    refine ends_pure (fun _ => Filling files part kept) h fun s h => ?_
    rwa [List.flatten_nil, List.append_nil]
  | cons piece rest ih =>
    refine ends_call (fun _ => Filling files part kept) h rfl fun m answer m' h hans => ?_
    cases answer with
    | error e =>
      have hfiles : m'.files = m.files := files_answered rfl hans
      refine ends_pure (fun _ => Filling files part kept) (hfiles ▸ h) fun s h => ?_
      refine ⟨refused_last (.appendFile part piece) (.error e) trivial t, [], List.nil_prefix, ?_⟩
      rwa [List.append_nil]
    | ok u =>
      have hfiles : m'.files = m.files.put part ((m.files.find? part).getD [] ++ piece) := files_answered rfl hans
      have hnext : Filling files part (kept ++ piece) m'.files := hfiles ▸ h.append piece
      refine (ih hnext).mono fun outcome t s hrest => ?_
      cases outcome with
      | ok u =>
        rw [List.flatten_cons, ← List.append_assoc]
        exact hrest
      | error e =>
        obtain ⟨hrefused, more, hmore, hfilling⟩ := hrest
        refine ⟨hrefused, piece ++ more, List.prefix_append_right_inj piece |>.2 hmore, ?_⟩
        rwa [← List.append_assoc]

/-- A download that fails before anything is written. -/
theorem failed_untouched {reply : Web.Reply} {chain : List String} (h : s.files = files)
    (hwhy : wholeBody? reply = none ∨ ∃ e ∈ t, IsFileRefused e) : Comes path files reply (.error chain) t s := by
  subst h
  exact ⟨⟨hwhy, .inl rfl⟩, fun _ _ _ => rfl⟩

/-- A download that fails while its body comes in. -/
theorem failed_filling {chain : List String} (h : Filling files (partialPath path) kept s.files)
    (hwhy : wholeBody? (.answered status body) = none ∨ ∃ e ∈ t, IsFileRefused e) (hkept : kept <+: body.bytes) :
    Comes path files (.answered status body) (.error chain) t s := by
  refine ⟨⟨hwhy, ?_⟩, fun other _ hother => h.others other hother⟩
  by_cases hown : partialPath path = path
  · refine .inr ⟨hown, status, body, kept, rfl, hkept, ?_⟩
    rw [← h.filled, hown]
  · exact .inl (h.others path (Ne.symm hown))

/-- The whole body is moved into place. -/
theorem moveInPlace_ends (hstatus : Web.isSuccess status = true) (hclosed : body.ending = .closed)
    (h : Filling files (partialPath path) body.bytes s.files) :
    (moveInPlace path body.bytes.length).Ends alone live (Comes path files (.answered status body)) t s := by
  refine ends_call (fun _ => Filling files (partialPath path) body.bytes) h rfl fun m moved m' h hans => ?_
  cases moved with
  | error e =>
    have hfiles : m'.files = m.files := files_answered rfl hans
    refine ends_pure (fun _ => Filling files (partialPath path) body.bytes) (hfiles ▸ h) fun s h => ?_
    exact failed_filling h (.inr (refused_last (.moveFile (partialPath path) path) (.error e) trivial t))
      List.prefix_rfl
  | ok u =>
    have hfiles : m'.files = Dict.put (m.files.filter fun (p, _) => p ≠ partialPath path) path body.bytes := by
      have hsource : (m.deeds 0).files.find? (partialPath path) = some body.bytes := h.filled
      rw [files_answered rfl hans]
      unfold Deeds.after
      dsimp only
      rw [hsource]
      rfl
    refine ends_pure (fun _ f => f = _) hfiles fun s hmoved => ?_
    have hwhole := (wholeBody?_answered status body).trans (if_pos ⟨hstatus, hclosed⟩)
    obtain ⟨hpath, hothers⟩ := h.move hmoved
    exact ⟨⟨body.bytes, hwhole, rfl, hpath⟩, hothers⟩

theorem putInPlace_ends (hstatus : Web.isSuccess status = true) (h : Filling files (partialPath path) body.bytes s.files) :
    (putInPlace location path body).Ends alone live (Comes path files (.answered status body)) t s := by
  have hnone : body.ending ≠ .closed → wholeBody? (.answered status body) = none := fun hending =>
    (wholeBody?_answered status body).trans (if_neg fun h => hending h.2)
  have hbroken : ∀ chain, body.ending ≠ .closed → (pure (.error chain) : Program (Except (List String) Nat)).Ends alone
      live (Comes path files (.answered status body)) t s := by
    intro chain hending
    exact ends_pure (fun _ => Filling files (partialPath path) body.bytes) h fun s h =>
      failed_filling h (.inl (hnone hending)) List.prefix_rfl
  unfold putInPlace
  split
  · next hclosed =>
    refine ends_call (fun _ => Filling files (partialPath path) body.bytes) h rfl fun m flushed m' h hans => ?_
    have hflushed : m'.files = m.files := by cases flushed <;> exact files_answered rfl hans
    cases flushed with
    | error e =>
      refine ends_pure (fun _ => Filling files (partialPath path) body.bytes) (hflushed ▸ h) fun s h => ?_
      exact failed_filling h (.inr (refused_last (.flushFile (partialPath path)) (.error e) trivial t)) List.prefix_rfl
    | ok u => exact moveInPlace_ends hstatus hclosed (hflushed ▸ h)
  · next reason hending => exact hbroken _ (by rw [hending]; nofun)
  · next hending => exact hbroken _ (by rw [hending]; nofun)

/-- Before the partial file is created, no file is touched. -/
theorem makeDirectoryOf_ends (path : String) (h : s.files = files) :
    (makeDirectoryOf path).Ends alone live
      (fun made t s => s.files = files ∧ ∀ e, made = .error e → ∃ e ∈ t, IsFileRefused e) t s := by
  unfold makeDirectoryOf
  split
  · next directory _ =>
    refine ends_call (fun _ f => f = files) h rfl fun m made m' h hans => ?_
    have hmade : m'.files = m.files := by cases made <;> exact files_answered rfl hans
    refine ends_pure (fun _ f => f = files) (hmade.trans h) fun s h => ⟨h, ?_⟩
    rintro e rfl
    exact refused_last (.makeDirectory directory) (.error e) trivial t
  · exact ends_pure (fun _ f => f = files) h fun s h => ⟨h, nofun⟩

/-- The body is stored once the server has answered that the request is a success. -/
theorem storeInPieces_ends (c : Cutting) (hstatus : Web.isSuccess status = true) (h : s.files = files) :
    (storeInPieces c location path body).Ends alone live (Comes path files (.answered status body)) t s := by
  refine (makeDirectoryOf_ends path h).bind fun made t m ⟨h, hrefused⟩ => ?_
  cases made with
  | error e =>
    exact ends_pure (fun _ f => f = files) h fun s h => failed_untouched h (.inr (hrefused e rfl))
  | ok u =>
    refine ends_call (fun _ f => f = files) h rfl fun n created n' h hans => ?_
    cases created with
    | error e =>
      have hfiles : n'.files = n.files := files_answered rfl hans
      exact ends_pure (fun _ f => f = files) (hfiles.trans h) fun s h =>
        failed_untouched h (.inr (refused_last (.createFile (partialPath path)) (.error e) trivial _))
    | ok u =>
      have hfiles : n'.files = n.files.put (partialPath path) [] := files_answered rfl hans
      have hstart : Filling files (partialPath path) [] n'.files := by
        rw [hfiles, h]
        exact .start files (partialPath path)
      refine (appendPieces_ends (c.pieces body) hstart).bind fun written t s hwritten => ?_
      rw [List.nil_append, c.flatten_pieces] at hwritten
      cases written with
      | error e =>
        obtain ⟨hrefused, kept, hkept, hfilling⟩ := hwritten
        exact ends_pure (fun _ => Filling files (partialPath path) kept) hfilling fun s h =>
          failed_filling h (.inr hrefused) hkept
      | ok u => exact putInPlace_ends hstatus hwritten

/-- A download, from its request on. -/
theorem downloadInPieces_ends (live : Prop) (c : Cutting) (location path : String) (h : s.files = files) :
    (downloadInPieces c location path).Ends alone live
      (fun outcome t s => ∃ reply u, t = ⟨.request location .timed none, reply⟩ :: u ∧
        Comes path files reply outcome u s) [] s := by
  refine ends_call (fun _ f => f = files) h rfl fun m reply m' h hans => ?_
  have hfiles : m'.files = files := (files_answered rfl hans).trans h
  suffices hrest : Program.Ends alone live (Comes path files reply) _ [] m' by
    refine (hrest.behind [⟨.request location .timed none, reply⟩]).mono fun outcome t s hpost => ?_
    obtain ⟨u, rfl, hpost⟩ := hpost
    exact ⟨reply, u, rfl, hpost⟩
  have failed : ∀ chain, wholeBody? reply = none → (pure (.error chain) : Program (Except (List String) Nat)).Ends alone
      live (Comes path files reply) [] m' := by
    intro chain hnone
    exact ends_pure (fun _ f => f = files) hfiles fun s h => failed_untouched h (.inl hnone)
  cases reply with
  | answered status body =>
    dsimp only
    split
    · next hstatus => exact storeInPieces_ends c hstatus hfiles
    · next hstatus => exact failed _ ((wholeBody?_answered status body).trans (if_neg fun h => hstatus h.1))
  | failed chain => exact failed _ rfl
  | none => exact failed _ rfl
  | cancelled => exact failed _ rfl

end Runs

/-! ## Main theorem -/

/-- **A download is whole or nothing.** It comes to an end whatever happens. It succeeds only with the whole body of a
successful reply, which is then at the destination, whatever was there or in the partial file before. Otherwise there is a
cause, and the destination is as it was, unless it is its own partial file. No other file is touched. -/
theorem download_is_whole_or_nothing (c : Cutting) (location path : String) (s : Server) :
    Program.Completes alone (downloadInPieces c location path) s ∧
      ∀ t outcome s', Program.Reaches alone (downloadInPieces c location path) s t (.done outcome) s' →
        ∃ reply u, t = ⟨.request location .timed none, reply⟩ :: u ∧ Comes path s.files reply outcome u s' := by
  refine ⟨(downloadInPieces_ends True c location path rfl).always trivial, fun t outcome s' hrun => ?_⟩
  exact ((downloadInPieces_ends True c location path rfl).reaches hrun).done

section Runs

/-- Bodies whose first byte comes on its own. -/
def firstByteApart : Cutting where
  pieces body := [body.bytes.take 1, body.bytes.drop 1]
  flatten_pieces body := by rw [List.flatten_cons, List.flatten_singleton, List.take_append_drop]

/-- A server with files that an earlier download may have left. -/
def serverOf (files : Dict (List UInt8)) : Server := { clock := default, files }

/-- The body of an icon comes in two pieces. A partial file that was left behind is of no account. -/
theorem leftover_is_of_no_account :
    ∃ t s', Program.Reaches alone (downloadInPieces firstByteApart "http://sets/lea" "icons/lea.svg")
        (serverOf [("icons/lea.part", [1, 2, 3])]) t (.done (.ok 2)) s' ∧
      s'.files.find? "icons/lea.svg" = some [4, 5] := by
  have hrun : Program.Reaches alone (downloadInPieces firstByteApart "http://sets/lea" "icons/lea.svg")
      (serverOf [("icons/lea.part", [1, 2, 3])])
      [⟨.request "http://sets/lea" .timed none, .answered 200 ⟨[4, 5], .closed⟩⟩,
        ⟨.makeDirectory "icons", .ok ()⟩, ⟨.createFile (partialPath "icons/lea.svg"), .ok ()⟩,
        ⟨.appendFile (partialPath "icons/lea.svg") [4], .ok ()⟩, ⟨.appendFile (partialPath "icons/lea.svg") [5], .ok ()⟩,
        ⟨.flushFile (partialPath "icons/lea.svg"), .ok ()⟩,
        ⟨.moveFile (partialPath "icons/lea.svg") "icons/lea.svg", .ok ()⟩]
      (.done (.ok 2)) (serverOf [("icons/lea.svg", [4, 5])]) :=
    .answer (.inl rfl) (.answer (.inl rfl) (.answer (.inl rfl) (.answer (.inl rfl) (.answer (.inl rfl)
      (.answer (.inl rfl) (.answer (.inl rfl) (.start _ _)))))))
  obtain ⟨reply, u, ht, ⟨bytes, hwhole, -, hfile⟩, -⟩ := (download_is_whole_or_nothing _ _ _ _).2 _ _ _ hrun
  cases ht
  cases hwhole
  exact ⟨_, _, hrun, hfile⟩

/-- The file at a destination that is its own partial file is lost when the body breaks off. -/
theorem own_partial_file_is_spoilt :
    partialPath "icons/lea.part" = "icons/lea.part" ∧
      ∃ t chain s', Program.Reaches alone (download "http://sets/lea" "icons/lea.part")
          (serverOf [("icons/lea.part", [1, 2, 3])]) t (.done (.error chain)) s' ∧
        s'.files.find? "icons/lea.part" = some [4] := by
  have hrun : Program.Reaches alone (download "http://sets/lea" "icons/lea.part")
      (serverOf [("icons/lea.part", [1, 2, 3])])
      [⟨.request "http://sets/lea" .timed none, .answered 200 ⟨[4], .broken Web.brokenBody⟩⟩,
        ⟨.makeDirectory "icons", .ok ()⟩, ⟨.createFile (partialPath "icons/lea.part"), .ok ()⟩,
        ⟨.appendFile (partialPath "icons/lea.part") [4], .ok ()⟩]
      (.done (.error ["Failed to read body of http://sets/lea", Web.brokenBody])) (serverOf [("icons/lea.part", [4])]) :=
    .answer (.inl rfl) (.answer (.inl rfl) (.answer (.inl rfl) (.answer (.inl rfl) (.start _ _))))
  exact ⟨rfl, _, _, _, hrun, rfl⟩

end Runs

end CatalogSync.Import
