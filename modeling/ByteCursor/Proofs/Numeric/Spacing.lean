import ByteCursor.Numeric.Binary64
import ByteCursor.Proofs.Numeric.Rounding
import Mathlib.Order.Monotone.Basic
import Mathlib.Tactic.Ring

set_option autoImplicit false

namespace ByteCursor

namespace Rank

def scale (rank : Nat) : Nat := rank / 2 ^ 52 - 1

def units (rank : Nat) : Nat := (rank - scale rank * 2 ^ 52) * 2 ^ scale rank

-- Twice the point halfway to the next rank.
def halfway (rank : Nat) : Nat := units rank + units (rank + 1)

theorem units_succ (rank : Nat) : units (rank + 1) = units rank + 2 ^ scale rank := by
  unfold units
  by_cases same : scale (rank + 1) = scale rank
  · have next : rank + 1 - scale rank * 2 ^ 52 = rank - scale rank * 2 ^ 52 + 1 := by
      unfold scale
      omega
    rw [same, next, Nat.succ_mul]
  · -- The next rank is the first of a wider spacing.
    have wider : scale (rank + 1) = scale rank + 1 := by
      unfold scale at *
      omega
    have last : rank - scale rank * 2 ^ 52 = 2 ^ 53 - 1 := by
      unfold scale at *
      omega
    have first : rank + 1 - (scale rank + 1) * 2 ^ 52 = 2 ^ 52 := by
      unfold scale at *
      omega
    rw [wider, last, first, Nat.pow_succ 2 (scale rank)]
    ring

theorem units_strictMono : StrictMono units := by
  apply strictMono_nat_of_lt_succ
  intro rank
  rw [units_succ]
  exact Nat.lt_add_of_pos_right (Nat.two_pow_pos _)

theorem halfway_eq (rank : Nat) : halfway rank = 2 * units rank + 2 ^ scale rank := by
  rw [halfway, units_succ]
  ring

theorem halfway_strictMono : StrictMono halfway := by
  intro a b lt
  exact Nat.add_lt_add (units_strictMono lt) (units_strictMono (Nat.add_lt_add_right lt 1))

theorem units_succ_le (rank : Nat) : units (rank + 1) ≤ 2 ^ 53 * 2 ^ scale rank := by
  rw [units_succ, units, ← Nat.succ_mul]
  apply Nat.mul_le_mul_right
  unfold scale
  omega

theorem le_units {rank : Nat} (normal : 2 ^ 52 ≤ rank) :
    2 ^ 52 * 2 ^ scale rank ≤ units rank := by
  apply Nat.mul_le_mul_right
  unfold scale
  omega

theorem units_of_coefficient {s k : Nat} (high : k ≤ 2 ^ 53) (low : s = 0 ∨ 2 ^ 52 ≤ k) :
    units (s * 2 ^ 52 + k) = k * 2 ^ s := by
  by_cases carry : k = 2 ^ 53
  · -- The coefficient is out of bits, and the rank is the first of the next scale.
    have wider : scale (s * 2 ^ 52 + k) = s + 1 := by
      unfold scale
      omega
    have first : s * 2 ^ 52 + k - (s + 1) * 2 ^ 52 = 2 ^ 52 := by omega
    rw [units, wider, first, carry, Nat.pow_succ 2 s]
    ring
  · have same : scale (s * 2 ^ 52 + k) = s := by
      unfold scale
      omega
    rw [units, same, Nat.add_sub_cancel_left]

end Rank

theorem units_eq (m : Magnitude) : m.units = Rank.units m.rank := rfl

namespace Binary64

variable {den : Nat}

theorem coefficient_bounds (num : Nat) (positive : 0 < den) :
    let s := (num / den).log2 - 52
    num < den * 2 ^ s * 2 ^ 53 ∧ (s = 0 ∨ den * 2 ^ s * 2 ^ 52 ≤ num) := by
  intro s
  have upper : num / den < 2 ^ (s + 53) := by
    apply Nat.lt_of_lt_of_le Nat.lt_log2_self
    exact Nat.pow_le_pow_right (by decide) (by omega)
  constructor
  · rw [Nat.div_lt_iff_lt_mul positive, Nat.pow_add] at upper
    calc num < 2 ^ s * 2 ^ 53 * den := upper
      _ = den * 2 ^ s * 2 ^ 53 := by ring
  · by_cases zero : s = 0
    · exact .inl zero
    · right
      have nonzero : num / den ≠ 0 := by
        intro none
        apply zero
        simp [s, none]
      have exponent : s + 52 = (num / den).log2 := by omega
      have lower : 2 ^ (s + 52) ≤ num / den := by
        rw [exponent]
        exact Nat.log2_self_le nonzero
      rw [Nat.le_div_iff_mul_le positive, Nat.pow_add] at lower
      calc den * 2 ^ s * 2 ^ 52 = 2 ^ s * 2 ^ 52 * den := by ring
        _ ≤ num := lower

theorem nearestRank_parts (num : Nat) (positive : 0 < den) :
    ∃ s k, nearestRank num den = s * 2 ^ 52 + k ∧ k = roundDiv num (den * 2 ^ s) ∧ k ≤ 2 ^ 53 ∧
      (s = 0 ∨ 2 ^ 52 ≤ k ∧ den * 2 ^ s * 2 ^ 52 ≤ num) := by
  obtain ⟨upper, lower⟩ := coefficient_bounds num positive
  unfold nearestRank
  dsimp only at upper lower ⊢
  generalize (num / den).log2 - 52 = s at upper lower
  have step : 0 < den * 2 ^ s := Nat.mul_pos positive (Nat.two_pow_pos s)
  have below := roundDiv_lower num (den * 2 ^ s) step
  have above := roundDiv_upper num (den * 2 ^ s) step
  refine ⟨s, _, rfl, rfl, ?_, ?_⟩
  · by_contra large
    have more := Nat.mul_le_mul_left (den * 2 ^ s) (Nat.lt_of_not_le large)
    omega
  · rcases lower with zero | lower
    · exact .inl zero
    · refine .inr ⟨?_, lower⟩
      by_contra small
      have less := Nat.mul_le_mul_left (den * 2 ^ s) (Nat.lt_of_not_le small)
      rw [Nat.succ_eq_add_one, Nat.mul_add] at less
      omega

theorem nearestRank_above (num : Nat) (positive : 0 < den) :
    2 * num ≤ den * Rank.halfway (nearestRank num den) ∧
      (2 * num = den * Rank.halfway (nearestRank num den) → nearestRank num den % 2 = 0) := by
  obtain ⟨s, k, rank, rounded, high, low⟩ := nearestRank_parts num positive
  have step : 0 < den * 2 ^ s := Nat.mul_pos positive (Nat.two_pow_pos s)
  have units : den * Rank.units (s * 2 ^ 52 + k) = den * 2 ^ s * k := by
    rw [Rank.units_of_coefficient high (low.imp id And.left)]
    ring
  have wide : den * 2 ^ s ≤ den * 2 ^ Rank.scale (s * 2 ^ 52 + k) := by
    apply Nat.mul_le_mul_left
    apply Nat.pow_le_pow_right (by decide)
    unfold Rank.scale
    omega
  have near := roundDiv_lower num (den * 2 ^ s) step
  rw [rank, Rank.halfway_eq, Nat.mul_add, Nat.mul_left_comm, units]
  rw [← rounded] at near
  constructor
  · omega
  · intro tie
    have even := roundDiv_half num (den * 2 ^ s) step (by rw [← rounded]; omega)
    omega

theorem nearestRank_below {num rank : Nat} (positive : 0 < den)
    (next : nearestRank num den = rank + 1) :
    den * Rank.halfway rank ≤ 2 * num ∧
      (2 * num = den * Rank.halfway rank → nearestRank num den % 2 = 0) := by
  obtain ⟨s, k, parts, rounded, high, low⟩ := nearestRank_parts num positive
  have step : 0 < den * 2 ^ s := Nat.mul_pos positive (Nat.two_pow_pos s)
  have units : den * Rank.units (rank + 1) = den * 2 ^ s * k := by
    rw [← next, parts, Rank.units_of_coefficient high (low.imp id And.left)]
    ring
  have half : den * Rank.halfway rank + den * 2 ^ Rank.scale rank = 2 * (den * 2 ^ s * k) := by
    rw [← units, Rank.halfway, Rank.units_succ]
    ring
  have near := roundDiv_upper num (den * 2 ^ s) step
  rw [← rounded] at near
  by_cases first : s ≠ 0 ∧ k = 2 ^ 52
  · -- The ranks below are closer together, but the number is not below this one.
    obtain ⟨_, at_least⟩ := low.resolve_left first.1
    have gap : 0 < den * 2 ^ Rank.scale rank := Nat.mul_pos positive (Nat.two_pow_pos _)
    rw [first.2] at half
    constructor
    · omega
    · omega
  · have wide : den * 2 ^ s ≤ den * 2 ^ Rank.scale rank := by
      apply Nat.mul_le_mul_left
      apply Nat.pow_le_pow_right (by decide)
      unfold Rank.scale
      omega
    constructor
    · omega
    · intro tie
      have even := roundDiv_half num (den * 2 ^ s) step (by rw [← rounded]; omega)
      omega

theorem nearestRank_le_iff (num : Nat) (positive : 0 < den) (rank : Nat) :
    nearestRank num den ≤ rank ↔
      2 * num < den * Rank.halfway rank ∨ (2 * num = den * Rank.halfway rank ∧ rank % 2 = 0) := by
  have above := nearestRank_above num positive
  constructor
  · intro le
    rcases Nat.lt_or_eq_of_le le with lt | eq
    · left
      apply Nat.lt_of_le_of_lt above.1
      exact Nat.mul_lt_mul_of_pos_left (Rank.halfway_strictMono lt) positive
    · rw [eq] at above
      rcases Nat.lt_or_eq_of_le above.1 with lt | tie
      · exact .inl lt
      · exact .inr ⟨tie, above.2 tie⟩
  · intro below
    -- A rank above this one is only reached from the point halfway below it.
    by_contra gt
    obtain ⟨last, next⟩ : ∃ last, nearestRank num den = last + 1 :=
      Nat.exists_eq_succ_of_ne_zero (by omega)
    have lower := nearestRank_below positive next
    have mono : den * Rank.halfway rank ≤ den * Rank.halfway last :=
      Nat.mul_le_mul_left den (Rank.halfway_strictMono.monotone (by omega))
    rcases below with lt | ⟨tie, even⟩
    · omega
    · have same : Rank.halfway rank = Rank.halfway last :=
        Nat.eq_of_mul_eq_mul_left positive (by omega)
      have equal := Rank.halfway_strictMono.injective same
      have odd := lower.2 (by omega)
      omega

end Binary64

end ByteCursor
