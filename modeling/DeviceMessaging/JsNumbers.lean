import Mathlib.Tactic.Ring
import Mathlib.Tactic.Positivity
import Mathlib.Algebra.Order.Field.Power
import DeviceMessaging.MessageTypes

namespace DeviceMessaging

namespace JsNumber

/-- The number is what `parseInt` makes of its text. -/
def ReadsBack (x : JsNumber) : Prop :=
  (x.parseInt : ℚ) = x.value

instance (x : JsNumber) : Decidable x.ReadsBack :=
  inferInstanceAs (Decidable ((x.parseInt : ℚ) = x.value))

/-- The value without its sign. -/
def magnitude (x : JsNumber) : ℚ :=
  x.significand * (10 : ℚ) ^ x.exponent

/-- The count of its significant digits. -/
def digits (x : JsNumber) : Nat :=
  (Nat.toDigits 10 x.significand).length

variable {x : JsNumber}

theorem zpow_exponent (e : Int) :
    (if 0 ≤ e then (10 : ℚ) ^ e.toNat else 1 / 10 ^ (-e).toNat) = 10 ^ e := by
  split
  next h =>
    obtain ⟨n, rfl⟩ := Int.eq_ofNat_of_zero_le h
    simp
  next h =>
    obtain ⟨n, hn⟩ := Int.eq_ofNat_of_zero_le (by omega : 0 ≤ -e)
    rw [show e = -(n : Int) by omega, zpow_neg]
    simp

theorem value_eq (x : JsNumber) : x.value = if x.negative then -x.magnitude else x.magnitude := by
  unfold value
  rw [zpow_exponent]
  unfold magnitude
  split <;> ring

theorem le_significand (hx : x.significand ≠ 0) : 10 ^ (x.digits - 1) ≤ x.significand := by
  by_cases h : x.digits = 1
  · rw [h]
    simpa using Nat.one_le_iff_ne_zero.mpr hx
  · have hpos : 0 < x.digits := Nat.length_toDigits_pos
    by_contra hlt
    have hle := (Nat.length_toDigits_le_iff (n := x.significand) (b := 10) (k := x.digits - 1)
      (by decide) (by omega)).mpr (by omega)
    change x.digits ≤ x.digits - 1 at hle
    omega

end JsNumber

end DeviceMessaging
