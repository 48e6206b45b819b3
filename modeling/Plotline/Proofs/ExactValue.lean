/-
Module: Plotline.Proofs.ExactValue
Layer: Proofs
Purpose: The rational number that a finite number stands for, and which numbers are whole. `Number.integer?`
  is computed on significand and exponent; here it is shown to say exactly that the rational is an integer,
  and which one.
Main exports: Number.exactValue, Number.integer?_eq_some, Number.integer?_eq
-/
import Mathlib.Algebra.Order.Field.Rat
import Mathlib.Tactic.FieldSimp
import Plotline.Number.Binary

namespace Plotline

namespace Number

/-- The rational number that a magnitude stands for. -/
def Magnitude.toRat (m : Magnitude) : ℚ :=
  m.significand * 2 ^ m.exponent

/-- The rational number that a finite number stands for. -/
def exactValue (x : Float) : ℚ :=
  if isNegative x then -(magnitude x).toRat else (magnitude x).toRat

theorem Magnitude.toRat_nonneg (m : Magnitude) : 0 ≤ m.toRat :=
  mul_nonneg (Nat.cast_nonneg _) (zpow_nonneg (by norm_num) _)

/-- A magnitude is whole exactly if it stands for a natural number. -/
theorem Magnitude.natural?_eq_some {m : Magnitude} {n : Nat} :
    m.natural? = some n ↔ m.toRat = n := by
  unfold natural? toRat
  split
  · rename_i whole
    obtain ⟨e, exponent⟩ := Int.eq_ofNat_of_zero_le whole
    rw [exponent]
    simp only [power, Int.toNat_natCast, Option.some.injEq, Nat.pow_eq, zpow_natCast]
    norm_cast
  · rename_i negative
    obtain ⟨e, exponent⟩ : ∃ e : Nat, -m.exponent = e :=
      Int.eq_ofNat_of_zero_le (by omega)
    have unit_pos : 0 < 2 ^ e := Nat.pos_of_ne_zero (by simp)
    -- Both sides say that the significand is `n` times the unit.
    have scaled : (m.significand * 2 ^ m.exponent : ℚ) = n ↔ m.significand = n * 2 ^ e := by
      rw [show m.exponent = -(e : Int) by omega, zpow_neg, zpow_natCast, ← div_eq_mul_inv,
        div_eq_iff (pow_ne_zero e two_ne_zero)]
      norm_cast
    rw [scaled]
    simp only [exponent, power, Int.toNat_natCast, Nat.pow_eq, beq_iff_eq]
    constructor
    · intro found
      split at found
      · rename_i divides
        cases found
        exact (Nat.div_mul_cancel (Nat.dvd_of_mod_eq_zero divides)).symm
      · cases found
    · intro multiple
      rw [multiple, Nat.mul_mod_left, if_pos rfl, Nat.mul_div_cancel _ unit_pos]

/-- A number is the integer `k` exactly if it is finite and its magnitude is a natural number that `k` has
    with the sign. -/
theorem integer?_eq_some_signed {x : Float} {k : Int} :
    integer? x = some k ↔
      isFinite x = true ∧ ∃ n : Nat, (magnitude x).natural? = some n ∧
        k = if isNegative x then -(n : Int) else n := by
  unfold integer?
  cases isFinite x with
  | false => simp
  | true =>
      cases (magnitude x).natural? with
      | none => simp
      | some n =>
          constructor
          · intro found
            cases found
            exact ⟨rfl, n, rfl, rfl⟩
          · rintro ⟨_, _, same, rfl⟩
            cases same
            rfl

/-- A number is the integer `k` exactly if it is finite and stands for `k`. -/
theorem integer?_eq_some {x : Float} {k : Int} :
    integer? x = some k ↔ isFinite x = true ∧ exactValue x = k := by
  rw [integer?_eq_some_signed]
  refine and_congr_right fun _ => ?_
  simp only [Magnitude.natural?_eq_some, exactValue]
  constructor
  · rintro ⟨n, natural, rfl⟩
    rw [natural]
    split <;> simp
  · intro value
    -- A magnitude is not negative, so the one of `k` and `-k` that it is has to be natural.
    have nonneg := (magnitude x).toRat_nonneg
    cases sign : isNegative x with
    | true =>
        rw [sign] at value
        have opposite : (magnitude x).toRat = (-k : Int) := by
          rw [Int.cast_neg, ← value, if_pos rfl, neg_neg]
        rw [opposite] at nonneg
        obtain ⟨n, natural⟩ := Int.eq_ofNat_of_zero_le (Int.cast_nonneg_iff.1 nonneg)
        refine ⟨n, by rw [opposite, natural]; rfl, ?_⟩
        rw [if_pos rfl]
        omega
    | false =>
        rw [sign] at value
        have same : (magnitude x).toRat = k := value
        rw [same] at nonneg
        obtain ⟨n, natural⟩ := Int.eq_ofNat_of_zero_le (Int.cast_nonneg_iff.1 nonneg)
        exact ⟨n, by rw [same, natural]; rfl, natural⟩

/-- The integer of a number, read off the rational it stands for. -/
theorem integer?_eq (x : Float) :
    integer? x =
      if isFinite x = true ∧ (exactValue x).den = 1 then some (exactValue x).num else none := by
  split
  · rename_i whole
    rw [integer?_eq_some]
    exact ⟨whole.1, (Rat.coe_int_num_of_den_eq_one whole.2).symm⟩
  · rename_i notWhole
    rw [Option.eq_none_iff_forall_ne_some]
    intro k isInteger
    obtain ⟨finite, value⟩ := integer?_eq_some.1 isInteger
    exact notWhole ⟨finite, by rw [value]; rfl⟩

end Number

end Plotline
