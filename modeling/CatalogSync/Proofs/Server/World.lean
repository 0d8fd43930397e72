import CatalogSync.Proofs.Program.World
import CatalogSync.Server.Basic

/-!
# A server as a world of programs

`Server.world` answers questions as the server does, while others may go about their business on it, short
of its locks and its settings. `answer_kept` says which questions touch these: those that are about them.
-/

namespace CatalogSync.Server

/-- The same locks and settings, and the same calls that refuse. -/
structure Kept (s s' : Server) : Prop where
  locked : s'.locked = s.locked
  settings : s'.settings = s.settings
  refused : s'.faults.refused = s.faults.refused

/-- A server, where nobody but the programs touches the locks and the settings. -/
def world : World Server where
  stirs := Kept
  answers s q a s' := answer q s = some (a, s')

/-- The questions that touch neither a lock nor a setting. -/
def isAside : Ask → Bool
  | .lock _ => false
  | .unlock _ => false
  | .writeSetting _ _ => false
  | _ => true

variable {s : Server}

theorem Kept.refl (s : Server) : Kept s s := ⟨rfl, rfl, rfl⟩

theorem guarded_kept {α : Type} (call : Call) {f : Server → Stored α × Server} (h : Kept s (f s).2) :
    Kept s (s.guarded call f).2 := by
  unfold guarded
  split
  · exact .refl s
  · exact h

theorem upsert_kept (f : Time.Instant → Catalog → Nat × Catalog) : Kept s (upsert f s).2 := by
  unfold upsert
  dsimp only
  split
  · exact ⟨rfl, rfl, rfl⟩
  · split
    · split <;> exact ⟨rfl, rfl, rfl⟩
    · exact ⟨rfl, rfl, rfl⟩

theorem filed_kept (path : String) {f : Server → Server} (h : Kept s (f s)) : Kept s (s.filed path f).2 := by
  unfold filed
  split
  · exact .refl s
  · exact h

theorem moveFile_kept (source target : String) : Kept s (moveFile source target s).2 := by
  unfold moveFile
  split
  · exact .refl s
  · exact ⟨rfl, rfl, rfl⟩

theorem request_kept {location : String} {patience : Web.Patience} {token : Option Token} {p : Web.Reply × Server}
    (h : s.request location patience token = some p) : Kept s p.2 := by
  unfold request at h
  split at h
  · cases h
    exact .refl s
  · split at h
    · cases h
    · cases h
      exact ⟨rfl, rfl, rfl⟩

theorem receive_kept {id : Nat} {token : Token} {p : Feed.Arrival × Server} (h : s.receive id token = some p) :
    Kept s p.2 := by
  unfold receive at h
  split at h
  · cases h
    exact .refl s
  · split at h
    · cases h
      exact .refl s
    · obtain ⟨r, -, hr⟩ := Option.bind_eq_some_iff.1 h
      cases hr
      exact ⟨rfl, rfl, rfl⟩

theorem join_kept {id : Nat} {p : Feed.Outcome × Server} (h : s.join id = some p) : Kept s p.2 := by
  unfold join at h
  split at h
  · cases h
    exact .refl s
  · obtain ⟨r, -, hr⟩ := Option.bind_eq_some_iff.1 h
    cases hr
    exact ⟨rfl, rfl, rfl⟩

theorem answer_kept {q : Ask} {p : q.Answer × Server} (hq : isAside q = true) (h : answer q s = some p) :
    Kept s p.2 := by
  cases q with
  | lock => cases hq
  | unlock => cases hq
  | writeSetting => cases hq
  | request => exact request_kept h
  | receive => exact receive_kept h
  | join => exact join_kept h
  | upsertCards | upsertSets =>
    cases h
    exact guarded_kept .upsert (upsert_kept _)
  | makeDirectory | createFile | appendFile | flushFile =>
    cases h
    exact filed_kept _ ⟨rfl, rfl, rfl⟩
  | moveFile source target =>
    cases h
    exact moveFile_kept source target
  | now | isCancelled | startDecoder | abandon | fileExists | record =>
    cases h
    exact ⟨rfl, rfl, rfl⟩
  | _ =>
    cases h
    exact guarded_kept _ ⟨rfl, rfl, rfl⟩

variable {s' : Server}

theorem answer_lock {d : Dataset} {free : Bool} (h : answer (.lock d) s = some (free, s')) :
    if free then d ∉ s.locked ∧ s' = { s with locked := d :: s.locked } else d ∈ s.locked ∧ s' = s := by
  change (if s.locked.contains d then some (false, s) else some (true, { s with locked := d :: s.locked })) = _ at h
  split at h
  · next htaken =>
    cases h
    exact ⟨List.contains_iff_mem.1 htaken, rfl⟩
  · next hfree =>
    cases h
    exact ⟨fun hmem => hfree (List.contains_iff_mem.2 hmem), rfl⟩

theorem answer_writeSetting {key value : String} {a : Stored Unit} (hwrites : Call.writeSetting ∉ s.faults.refused)
    (h : answer (.writeSetting key value) s = some (a, s')) : s' = s.putSetting key value := by
  have hcall : s.faults.refused.contains Call.writeSetting = false := by simpa using hwrites
  change some (s.guarded .writeSetting _) = _ at h
  unfold guarded at h
  rw [hcall] at h
  cases h
  rfl

end CatalogSync.Server
