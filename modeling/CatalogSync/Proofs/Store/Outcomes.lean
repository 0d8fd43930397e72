import Mathlib.Data.List.Forall2

/-!
# Steps that may fail

Steps one after another succeed if each of them does, and so do the steps of a list.
-/

namespace CatalogSync

variable {ε α β : Type}

theorem bind_eq_ok_iff {x : Except ε α} {f : α → Except ε β} {b : β} :
    (x >>= f) = .ok b ↔ ∃ a, x = .ok a ∧ f a = .ok b := by
  cases x with
  | error e => exact ⟨nofun, nofun⟩
  | ok a => exact ⟨fun h => ⟨a, rfl, h⟩, fun ⟨_, hx, h⟩ => Except.ok.inj hx ▸ h⟩

theorem ok_of_bind {x : Except ε α} {f : α → Except ε β} {b : β} (h : (x >>= f) = .ok b) :
    ∃ a, x = .ok a ∧ f a = .ok b :=
  bind_eq_ok_iff.1 h

/-- A check that fails stops what follows. -/
theorem ok_of_check {p : Bool} {e : ε} {x : Except ε α} {a : α}
    (h : (if p = true then (throw e : Except ε Unit) >>= fun _ => x else x) = .ok a) : p = false ∧ x = .ok a := by
  cases p with
  | true => cases h
  | false => exact ⟨rfl, h⟩

section Lists

variable {f : α → Except ε β} {P : α → β → Prop} {xs : List α} {ys : List β}

theorem mapM_eq_ok_iff (hP : ∀ x ∈ xs, ∀ y, f x = .ok y ↔ P x y) : xs.mapM f = .ok ys ↔ List.Forall₂ P xs ys := by
  induction xs generalizing ys with
  | nil =>
    rw [List.mapM_nil, List.forall₂_nil_left_iff]
    exact ⟨fun h => (Except.ok.inj h).symm, fun h => h ▸ rfl⟩
  | cons x xs ih =>
    have hrest : ∀ rest, xs.mapM f = .ok rest ↔ List.Forall₂ P xs rest := fun rest =>
      ih fun w hw => hP w (List.mem_cons_of_mem x hw)
    have hx := hP x List.mem_cons_self
    rw [List.mapM_cons, bind_eq_ok_iff, List.forall₂_cons_left_iff]
    constructor
    · rintro ⟨y, hy, h⟩
      obtain ⟨rest, hmapped, h⟩ := bind_eq_ok_iff.1 h
      cases h
      exact ⟨y, rest, (hx y).1 hy, (hrest rest).1 hmapped, rfl⟩
    · rintro ⟨y, rest, hy, hall, rfl⟩
      exact ⟨y, (hx y).2 hy, bind_eq_ok_iff.2 ⟨rest, (hrest rest).2 hall, rfl⟩⟩

theorem mapM_ok {g : α → β} (h : ∀ x ∈ xs, f x = .ok (g x)) : xs.mapM f = .ok (xs.map g) := by
  have hg : ∀ x ∈ xs, ∀ y, f x = .ok y ↔ g x = y := fun x hx y => by rw [h x hx, Except.ok.injEq]
  exact (mapM_eq_ok_iff hg).2 (List.forall₂_map_right_iff.2 (List.forall₂_same.2 fun _ _ => rfl))

end Lists

end CatalogSync
