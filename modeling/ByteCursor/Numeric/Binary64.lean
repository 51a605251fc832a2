import ByteCursor.Numeric.Rounding

set_option autoImplicit false

/-!
# Binary64 numbers

A finite magnitude is its rank among the finite magnitudes, which are finitely many and start at
zero. Up to rank `2 ^ 53` they are one unit of `2 ^ (-1074)` apart, and every further `2 ^ 52`
ranks doubles the distance. So nearness, overflow and the parity that settles a tie are all read
off ranks.
-/

namespace ByteCursor

attribute [local instance] power

def unitsPerOne : Nat := 2 ^ (1074 : Nat)

structure Magnitude where
  rank : Nat
  rank_lt : rank < 2047 * 2 ^ (52 : Nat)
  deriving Repr, DecidableEq

namespace Magnitude

def zero : Magnitude := ⟨0, by decide⟩

def scale (m : Magnitude) : Nat := m.rank / 2 ^ (52 : Nat) - 1

def coefficient (m : Magnitude) : Nat := m.rank - m.scale * 2 ^ (52 : Nat)

def units (m : Magnitude) : Nat := m.coefficient * 2 ^ m.scale

def isSubnormal (m : Magnitude) : Bool := 0 < m.rank && m.rank < 2 ^ (52 : Nat)

theorem coefficient_lt (m : Magnitude) : m.coefficient < 2 ^ (53 : Nat) := by
  unfold coefficient scale
  omega

end Magnitude

inductive Binary64
  | nan
  | infinite (negative : Bool)
  | finite (negative : Bool) (magnitude : Magnitude)
  deriving Repr, DecidableEq

namespace Binary64

def zero (negative : Bool) : Binary64 := .finite negative .zero

def isInfinite : Binary64 → Bool
  | infinite _ => true
  | _ => false

def isSubnormal : Binary64 → Bool
  | finite _ m => m.isSubnormal
  | _ => false

def isZero : Binary64 → Bool
  | finite _ m => m == .zero
  | _ => false

def ofBits (bits : UInt64) : Binary64 :=
  let negative : Bool := 2 ^ (63 : Nat) ≤ bits.toNat
  let rank := bits.toNat % 2 ^ (63 : Nat)
  if h : rank < 2047 * 2 ^ (52 : Nat) then .finite negative ⟨rank, h⟩
  -- Past the finite ranks come an infinity and then NaNs.
  else if rank = 2047 * 2 ^ (52 : Nat) then .infinite negative
  else .nan

def signBit (negative : Bool) : Nat := if negative then 2 ^ (63 : Nat) else 0

def toBits : Binary64 → UInt64
  | nan => .ofNat (2047 * 2 ^ (52 : Nat) + 2 ^ (51 : Nat))
  | infinite negative => .ofNat (signBit negative + 2047 * 2 ^ (52 : Nat))
  | finite negative m => .ofNat (signBit negative + m.rank)

theorem toNat_toBits_finite (negative : Bool) (m : Magnitude) :
    (toBits (.finite negative m)).toNat = signBit negative + m.rank := by
  have bound := m.rank_lt
  rw [toBits, UInt64.toNat_ofNat', Nat.mod_eq_of_lt]
  unfold signBit
  split <;> omega

@[simp] theorem ofBits_toBits (x : Binary64) : ofBits x.toBits = x := by
  cases x with
  | nan => decide
  | infinite negative => cases negative <;> decide
  | finite negative m =>
      have bound := m.rank_lt
      have rank : (signBit negative + m.rank) % 2 ^ (63 : Nat) = m.rank := by
        unfold signBit
        split <;> omega
      have sign : decide (2 ^ (63 : Nat) ≤ signBit negative + m.rank) = negative := by
        cases negative
        · simp [signBit]
          omega
        · simp [signBit]
      simp only [ofBits, toNat_toBits_finite, rank, sign, bound, dite_true]

-- The rank nearest to `num / den` units, as if ranks went on past the finite ones.
def nearestRank (num den : Nat) : Nat :=
  let scale := (num / den).log2 - 52
  scale * 2 ^ (52 : Nat) + roundDiv num (den * 2 ^ scale)

def nearest (negative : Bool) (num den : Nat) : Binary64 :=
  if h : nearestRank num den < 2047 * 2 ^ (52 : Nat) then .finite negative ⟨nearestRank num den, h⟩
  else .infinite negative

end Binary64

end ByteCursor
