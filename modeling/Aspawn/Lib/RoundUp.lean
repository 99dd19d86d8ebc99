import Mathlib.Algebra.Order.Floor.Div
import Mathlib.Algebra.Order.Group.Nat
import Mathlib.Data.Nat.ModEq

/-! Rounding up to a multiple, as the left adjoint of multiplication, and its
behaviour when sums and roundings wrap modulo a multiple of the unit. -/

set_option autoImplicit false

/-- The least multiple of `unit` that is at least `size`. -/
def roundUp (size unit : Nat) : Nat := unit * (size ⌈/⌉ unit)

namespace roundUp

variable {size other unit modulus : Nat}

theorem dvd (size unit : Nat) : unit ∣ roundUp size unit := Nat.dvd_mul_right _ _

theorem le (positive : 0 < unit) : size ≤ roundUp size unit :=
  le_smul_ceilDiv positive

theorem le_iff (positive : 0 < unit) (multiple : unit ∣ other) :
    roundUp size unit ≤ other ↔ size ≤ other := by
  obtain ⟨count, rfl⟩ := multiple
  rw [roundUp, Nat.mul_le_mul_left_iff positive]
  exact ceilDiv_le_iff_le_mul positive

theorem eq_self (positive : 0 < unit) (multiple : unit ∣ size) : roundUp size unit = size :=
  Nat.le_antisymm ((le_iff positive multiple).mpr le_rfl) (le positive)

theorem add_of_dvd (positive : 0 < unit) (multiple : unit ∣ other) :
    roundUp (other + size) unit = other + roundUp size unit := by
  obtain ⟨count, rfl⟩ := multiple
  have shift : unit * count + size + unit - 1 = (size + unit - 1) + unit * count := by omega
  rw [roundUp, roundUp, Nat.ceilDiv_eq_add_pred_div, Nat.ceilDiv_eq_add_pred_div, shift,
    Nat.add_mul_div_left _ _ positive, Nat.mul_add, Nat.add_comm]

theorem lt_add (positive : 0 < unit) : roundUp size unit < size + unit := by
  have bound : unit * ((size + unit - 1) / unit) ≤ size + unit - 1 := Nat.mul_div_le _ _
  rw [roundUp, Nat.ceilDiv_eq_add_pred_div]
  omega

/-- Between a size and its rounding there is no other multiple. -/
theorem eq_of_dvd (positive : 0 < unit) (multiple : unit ∣ other) (above : size ≤ other)
    (near : other < size + unit) : roundUp size unit = other := by
  apply Nat.le_antisymm ((le_iff positive multiple).mpr above)
  by_contra below
  obtain ⟨high, rfl⟩ := multiple
  have strict : unit * (size ⌈/⌉ unit) < unit * high := Nat.lt_of_not_le below
  have next : size ⌈/⌉ unit + 1 ≤ high := Nat.lt_of_mul_lt_mul_left strict
  have gap : unit * (size ⌈/⌉ unit) + unit ≤ unit * high := by
    calc unit * (size ⌈/⌉ unit) + unit = unit * (size ⌈/⌉ unit + 1) := (Nat.mul_add_one _ _).symm
      _ ≤ unit * high := Nat.mul_le_mul_left _ next
  have atLeast : size ≤ unit * (size ⌈/⌉ unit) := le positive
  omega

/-- The remainder form computed by machine code, before any wrap-around. -/
theorem eq_add_remainder (positive : 0 < unit) :
    roundUp size unit = size + if size % unit ≠ 0 then unit - size % unit else 0 := by
  have split := Nat.div_add_mod size unit
  have small := Nat.mod_lt size positive
  by_cases aligned : size % unit = 0
  · simp [aligned, eq_self positive (Nat.dvd_of_mod_eq_zero aligned)]
  · rw [if_pos aligned]
    have whole : size + (unit - size % unit) = unit * (size / unit + 1) := by
      rw [Nat.mul_add]
      omega
    apply eq_of_dvd positive
    · exact whole ▸ Nat.dvd_mul_right _ _
    · omega
    · omega

theorem mod (positive : 0 < unit) (multiple : unit ∣ modulus) :
    roundUp (size % modulus) unit % modulus = roundUp size unit % modulus := by
  have split := Nat.div_add_mod size modulus
  have shifted : roundUp size unit =
      modulus * (size / modulus) + roundUp (size % modulus) unit := by
    rw [← add_of_dvd positive (Dvd.dvd.mul_right multiple _), split]
  rw [shifted, Nat.mul_add_mod]

end roundUp
