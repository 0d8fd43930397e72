import CatalogSync.Binary64.Basic
import Mathlib.Tactic.Ring

/-!
# Counting with doubles

The doubles of natural numbers below `2 ^ 53` are these numbers (`exact_ofNat`), and a ratio is rounded to the same double
when both of its sides are multiplied by a power of two (`ofRatio_mul_two_pow`).

Main statement: `add_ofNat`. A counter that is kept as a double counts right up to there.
-/

namespace CatalogSync.Binary64

/-! ## Rounding -/

theorem log2_mul_two_pow {n : Nat} (hn : n ≠ 0) (j : Nat) : (n * 2 ^ j).log2 = n.log2 + j := by
  obtain ⟨hfrom, hto⟩ := (Nat.log2_eq_iff hn).1 rfl
  refine (Nat.log2_eq_iff (Nat.mul_ne_zero hn (Nat.two_pow_pos j).ne')).2 ⟨?_, ?_⟩
  · rw [Nat.pow_add]
    exact Nat.mul_le_mul_right _ hfrom
  · rw [Nat.add_right_comm, Nat.pow_add]
    exact Nat.mul_lt_mul_of_pos_right hto (Nat.two_pow_pos j)

theorem roundHalfEven_mul (num den : Nat) {c : Nat} (hc : 0 < c) :
    roundHalfEven (num * c) (den * c) = roundHalfEven num den := by
  have hlt : ∀ a b, a * c < b * c ↔ a < b := fun a b => Nat.mul_lt_mul_right hc
  unfold roundHalfEven
  rw [Nat.mul_div_mul_right _ _ hc, Nat.mul_mod_mul_right, ← Nat.mul_assoc]
  simp only [hlt]

theorem inUnits_mul (num den c : Nat) (e : Int) :
    inUnits (num * c) (den * c) e = ((inUnits num den e).1 * c, (inUnits num den e).2 * c) := by
  unfold inUnits
  split
  · exact Prod.ext rfl (Nat.mul_right_comm _ _ _)
  · exact Prod.ext (Nat.mul_right_comm _ _ _) rfl

theorem unitExponent_mul_two_pow {num den : Nat} (hnum : num ≠ 0) (hden : den ≠ 0) (j : Nat) :
    unitExponent (num * 2 ^ j) (den * 2 ^ j) = unitExponent num den := by
  have hguess : (((num * 2 ^ j).log2 : Int) - ((den * 2 ^ j).log2 : Int) - 53) = (num.log2 : Int) - (den.log2 : Int) - 53 := by
    rw [log2_mul_two_pow hnum, log2_mul_two_pow hden]
    push_cast
    ring
  unfold unitExponent
  rw [hguess]
  dsimp only
  rw [inUnits_mul]
  dsimp only
  rw [Nat.mul_div_mul_right _ _ (Nat.two_pow_pos j)]

theorem ofRatio_mul_two_pow (negative : Bool) (num : Nat) {den : Nat} (hden : den ≠ 0) (j : Nat) :
    ofRatio negative (num * 2 ^ j) (den * 2 ^ j) = ofRatio negative num den := by
  by_cases hnum : num = 0
  · rw [hnum, Nat.zero_mul]
    rfl
  · have hnum' : num * 2 ^ j ≠ 0 := Nat.mul_ne_zero hnum (Nat.two_pow_pos j).ne'
    unfold ofRatio
    rw [if_neg hnum, if_neg hnum', unitExponent_mul_two_pow hnum hden]
    dsimp only
    rw [inUnits_mul]
    dsimp only
    rw [roundHalfEven_mul _ _ (Nat.two_pow_pos j)]

/-! ## Natural numbers -/

/-- A number is this natural number, and not only near it. -/
def Exact (x : Binary64) (n : Nat) : Prop := ∃ m e j, x = .finite false m e ∧ ratio m e = (n * 2 ^ j, 2 ^ j)

theorem roundHalfEven_one (n : Nat) : roundHalfEven n 1 = n := by
  unfold roundHalfEven
  rw [Nat.div_one, Nat.mod_one]
  rfl

/-- The unit that leaves 53 bits of a number of no more than so many. -/
theorem unitExponent_one {n : Nat} (hpos : 0 < n) (hn : n < 2 ^ 53) : unitExponent n 1 = n.log2 - 52 := by
  have hlog : n.log2 < 53 := (Nat.log2_lt hpos.ne').2 hn
  have hbits : 2 ^ 53 ≤ n * 2 ^ (53 - n.log2) := by
    calc 2 ^ 53 = 2 ^ n.log2 * 2 ^ (53 - n.log2) := by rw [← Nat.pow_add]; congr 1; omega
      _ ≤ n * 2 ^ (53 - n.log2) := Nat.mul_le_mul_right _ (Nat.log2_self_le hpos.ne')
  have hunits : inUnits n 1 ((n.log2 : Int) - ((1 : Nat).log2 : Int) - 53) = (n * 2 ^ (53 - n.log2), 1) := by
    have hone : (1 : Nat).log2 = 0 := by decide
    unfold inUnits
    rw [hone, if_neg (by omega)]
    congr 3
    omega
  unfold unitExponent
  dsimp only
  rw [hunits]
  dsimp only
  have hlong : ¬ n * 2 ^ (53 - n.log2) < Nat.pow 2 53 := Nat.not_lt.2 hbits
  have hone : (1 : Nat).log2 = 0 := by decide
  rw [Nat.div_one, if_neg hlong, hone]
  omega

/-- A natural number of no more than 53 bits, filled up to so many. -/
theorem ofNat_of_pos {n : Nat} (hpos : 0 < n) (hn : n < 2 ^ 53) :
    ofNat n = .finite false (n * 2 ^ (52 - n.log2)) (n.log2 - 52) := by
  have hlog : n.log2 < 53 := (Nat.log2_lt hpos.ne').2 hn
  have hunits : inUnits n 1 ((n.log2 : Int) - 52) = (n * 2 ^ (52 - n.log2), 1) := by
    unfold inUnits
    split
    · have hlast : n.log2 = 52 := by omega
      simp [hlast]
    · congr 3
      omega
  have hbits : n * 2 ^ (52 - n.log2) < 2 ^ 53 := by
    calc n * 2 ^ (52 - n.log2) < 2 ^ (n.log2 + 1) * 2 ^ (52 - n.log2) :=
          Nat.mul_lt_mul_of_pos_right Nat.lt_log2_self (Nat.two_pow_pos _)
      _ = 2 ^ 53 := by rw [← Nat.pow_add]; congr 1; omega
  unfold ofNat ofRatio
  rw [if_neg hpos.ne', unitExponent_one hpos hn]
  dsimp only
  rw [hunits]
  dsimp only
  rw [roundHalfEven_one]
  have hshort : ¬ n * 2 ^ (52 - n.log2) = Nat.pow 2 53 := hbits.ne
  have hsmall : ¬ (n.log2 : Int) - 52 > 971 := by omega
  rw [if_neg hshort]
  exact if_neg hsmall

theorem exact_ofNat {n : Nat} (hn : n < 2 ^ 53) : Exact (ofNat n) n := by
  rcases Nat.eq_zero_or_pos n with rfl | hpos
  · refine ⟨0, -1074, (-(-1074 : Int)).toNat, rfl, ?_⟩
    unfold ratio
    rw [if_neg (by decide), Nat.zero_mul]
    generalize (-(-1074 : Int)).toNat = k
    rfl
  · have hlog : n.log2 < 53 := (Nat.log2_lt hpos.ne').2 hn
    refine ⟨_, _, 52 - n.log2, ofNat_of_pos hpos hn, ?_⟩
    unfold ratio
    split
    · have hlast : n.log2 = 52 := by omega
      simp [hlast]
    · congr 2
      omega

/-- The sum of exact numbers is rounded from their sum. -/
theorem Exact.add {x y : Binary64} {m n : Nat} (hx : Exact x m) (hy : Exact y n) : x.add y = ofNat (m + n) := by
  obtain ⟨a, e, i, rfl, hm⟩ := hx
  obtain ⟨b, f, j, rfl, hn⟩ := hy
  have hsum : signed false (m * 2 ^ i * 2 ^ j) + signed false (n * 2 ^ j * 2 ^ i) = ((m + n) * 2 ^ (i + j) : Nat) := by
    unfold signed
    rw [if_neg Bool.false_ne_true, if_neg Bool.false_ne_true]
    push_cast
    ring
  have hpow : 2 ^ i * 2 ^ j = 1 * 2 ^ (i + j) := by rw [Nat.one_mul, Nat.pow_add]
  unfold Binary64.add
  dsimp only
  rw [hm, hn]
  dsimp only
  rw [hsum, hpow]
  unfold ofSignedRatio ofNat
  by_cases hzero : m + n = 0
  · rw [hzero, Nat.zero_mul]
    rfl
  · have hnum : (((m + n) * 2 ^ (i + j) : Nat) : Int) ≠ 0 := by
      exact_mod_cast Nat.mul_ne_zero hzero (Nat.two_pow_pos _).ne'
    have hsign : decide ((((m + n) * 2 ^ (i + j) : Nat) : Int) < 0) = false := decide_eq_false (by omega)
    rw [if_neg hnum, hsign, Int.natAbs_natCast]
    exact ofRatio_mul_two_pow false _ Nat.one_ne_zero _

/-- **Counting is exact** below `2 ^ 53`. -/
theorem add_ofNat {m n : Nat} (hsum : m + n < 2 ^ 53) : (ofNat m).add (ofNat n) = ofNat (m + n) :=
  (exact_ofNat (by omega)).add (exact_ofNat (by omega))

/-- Naturals are added up right one after the other as well. -/
theorem foldl_add_ofNat {m : Nat} {ns : List Nat} (hsum : m + ns.sum < 2 ^ 53) :
    (ns.map ofNat).foldl add (ofNat m) = ofNat (m + ns.sum) := by
  induction ns generalizing m with
  | nil => rfl
  | cons n ns ih =>
    rw [List.sum_cons, ← Nat.add_assoc] at hsum ⊢
    rw [List.map_cons, List.foldl_cons, add_ofNat (by omega), ih hsum]

end CatalogSync.Binary64
