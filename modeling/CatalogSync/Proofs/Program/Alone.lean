import CatalogSync.Proofs.Program.Path
import CatalogSync.Proofs.Program.Together

/-!
# One program among others

Of a run of programs side by side, `own` are the events of one of them. They are a path of that program, and paths of all
of them make a run if the world can give the answers (`together_iff`). A run of one program while the others wait is one
of them all (`Together.of_reaches`).
-/

namespace CatalogSync

variable {α σ ι : Type} [DecidableEq ι]

namespace Program

def own (j : ι) (t : List (ι × Event)) : List Event := t.filterMap fun e => if e.1 = j then some e.2 else none

variable {w : World σ} {ps rs : ι → Program α} {s s' : σ} {t : List (ι × Event)} {i j : ι}

theorem own_cons_self (e : Event) : own j ((j, e) :: t) = e :: own j t := by
  simp [own]

theorem own_cons_of_ne (h : i ≠ j) (e : Event) : own j ((i, e) :: t) = own j t := by
  simp [own, h]

theorem mem_own_iff {e : Event} : e ∈ own j t ↔ (j, e) ∈ t := by
  unfold own
  rw [List.mem_filterMap]
  constructor
  · rintro ⟨⟨i, d⟩, hmem, hd⟩
    by_cases hi : i = j
    · subst hi
      simp only [if_pos] at hd
      cases hd
      exact hmem
    · simp [hi] at hd
  · intro hmem
    exact ⟨(j, e), hmem, by simp⟩

/-- The events of one program come in their order among all events. -/
theorem own_sublist (j : ι) (t : List (ι × Event)) : ((own j t).map fun e => (j, e)).Sublist t := by
  induction t with
  | nil => exact List.Sublist.slnil
  | cons e t ih =>
    obtain ⟨i, e⟩ := e
    by_cases hij : i = j
    · subst hij
      rw [own_cons_self]
      exact ih.cons_cons _
    · rw [own_cons_of_ne hij]
      exact ih.cons _

/-- Each goes its own way. -/
theorem Together.path (hrun : Together w ps s t rs s') (j : ι) : Path (ps j) (own j t) (rs j) := by
  induction hrun with
  | start => exact .here _
  | stir _ _ ih => exact ih
  | @answer ps rs i q k a s m s' t hi hans _ ih =>
    by_cases hij : i = j
    · subst hij
      rw [Function.update_self] at ih
      rw [own_cons_self, hi]
      exact .step ih
    · rw [Function.update_of_ne (Ne.symm hij)] at ih
      rw [own_cons_of_ne hij]
      exact ih

theorem Together.takes (hrun : Together w ps s t rs s') : w.Takes s (t.map Prod.snd) s' := by
  induction hrun with
  | start ps s => exact .start s
  | stir h _ ih => exact .stir h ih
  | answer _ hans _ ih => exact .answer hans ih

/-- **Runs side by side.** Each goes its own way, and the world gives the answers in their order. -/
theorem together_iff :
    Together w ps s t rs s' ↔ (∀ i, Path (ps i) (own i t) (rs i)) ∧ w.Takes s (t.map Prod.snd) s' := by
  constructor
  · exact fun hrun => ⟨hrun.path, hrun.takes⟩
  · rintro ⟨hpaths, htakes⟩
    generalize hu : t.map Prod.snd = u at htakes
    induction htakes generalizing t ps with
    | start s =>
      obtain rfl := List.map_eq_nil_iff.1 hu
      have hsame : rs = ps := funext fun i => (Path.here (ps i)).unique (hpaths i)
      rw [hsame]
      exact .start ps s
    | stir hstir _ ih => exact .stir hstir (ih hpaths hu)
    | @answer s m s' q a u hans _ ih =>
      obtain ⟨⟨i, e⟩, t, rfl, he, rfl⟩ := List.map_eq_cons_iff.1 hu
      obtain rfl : e = ⟨q, a⟩ := he
      have hpath := hpaths i
      rw [own_cons_self] at hpath
      generalize hi : ps i = p at hpath
      cases hpath with
      | step hnext =>
        refine .answer hi hans (ih (fun j => ?_) rfl)
        by_cases hij : i = j
        · subst hij
          rw [Function.update_self]
          exact hnext
        · rw [Function.update_of_ne (Ne.symm hij), ← own_cons_of_ne hij]
          exact hpaths j

/-- A run of one program while the others wait. -/
theorem Together.of_reaches (ps : ι → Program α) (j : ι) {p r : Program α} {u : List Event}
    (h : Reaches w p s u r s') (hj : ps j = p) :
    Together w ps s (u.map fun e => (j, e)) (Function.update ps j r) s' := by
  induction h generalizing ps with
  | start p s =>
    rw [← hj, Function.update_eq_self]
    exact .start ps s
  | stir hstir _ ih => exact .stir hstir (ih ps hj)
  | @answer q next a r s m s' u hans _ ih =>
    have hrest := ih (Function.update ps j (next a)) (Function.update_self ..)
    rw [Function.update_idem] at hrest
    exact .answer hj hans hrest

end Program

end CatalogSync
