import Mathlib.Data.Rat.Floor
import Mathlib.Tactic.Linarith
import Mathlib.Tactic.Positivity
import DeviceMessaging.CivilCalendar

namespace DeviceMessaging

open CivilCalendar

/-- `Math.trunc`. -/
def trunc (x : ℚ) : Int :=
  x.num.tdiv x.den

/-- The remainder `%`, with the sign of the dividend. -/
def jsMod (x m : ℚ) : ℚ :=
  x - m * trunc (x / m)

def isInteger (x : ℚ) : Prop :=
  x.den = 1

instance (x : ℚ) : Decidable (isInteger x) :=
  inferInstanceAs (Decidable (_ = _))

def isSafeInteger (x : ℚ) : Prop :=
  isInteger x ∧ x.num.natAbs < 2 ^ 53

instance (x : ℚ) : Decidable (isSafeInteger x) :=
  inferInstanceAs (Decidable (_ ∧ _))

/-- `Date.UTC` of a year, a month counted from zero and a day, as a day of the calendar;
`none` is `NaN`. Years below one hundred are those of the nineteen hundreds. -/
def dateUTC (year month day : ℚ) : Option Int :=
  let y := trunc year
  let fullYear := if 0 ≤ y ∧ y ≤ 99 then 1900 + y else y
  let ym := fullYear + trunc month / 12
  let n := daysBeforeYear ym + daysBeforeMonth ym (trunc month % 12).toNat + trunc day - 1
  let epoch := daysBeforeYear 1970
  if (n - epoch).natAbs ≤ 100000000 then some n else none

def getUTCDay (date : Option Int) : Option ℚ :=
  date.map fun n => (weekday n : ℚ)

def getUTCFullYear (date : Option Int) : Option ℚ :=
  date.map fun n => ((civilOfDay n).year : ℚ)

def getUTCMonth (date : Option Int) : Option ℚ :=
  date.map fun n => ((civilOfDay n).month : ℚ) - 1

def getUTCDate (date : Option Int) : Option ℚ :=
  date.map fun n => ((civilOfDay n).day : ℚ)

theorem trunc_int (n : Int) : trunc n = n := by
  simp [trunc]

theorem isInteger_int (n : Int) : isInteger n :=
  Rat.den_intCast n

theorem trunc_div (n m : Nat) : trunc ((n : ℚ) / m) = ((n / m : Nat) : Int) := by
  have hnum : 0 ≤ ((n : ℚ) / m).num := Rat.num_nonneg.mpr (by positivity)
  unfold trunc
  rw [Int.tdiv_eq_ediv_of_nonneg hnum, ← Rat.floor_def', Rat.floor_natCast_div_natCast,
    Int.natCast_ediv]

theorem jsMod_nat (n m : Nat) : jsMod n m = ((n % m : Nat) : ℚ) := by
  have h : (m * (n / m : Nat) + (n % m : Nat) : ℚ) = n := by exact_mod_cast Nat.div_add_mod n m
  unfold jsMod
  rw [trunc_div, Int.cast_natCast]
  linarith

/-- What is said of the date behind a timestamp says which day it is. -/
theorem getUTC_eq {date : Option Int} {y m d : ℚ} (hy : getUTCFullYear date = some y)
    (hm : getUTCMonth date = some m) (hd : getUTCDate date = some d) :
    ∃ n, date = some n ∧ ((civilOfDay n).year : ℚ) = y ∧ ((civilOfDay n).month : ℚ) = m + 1 ∧
      ((civilOfDay n).day : ℚ) = d := by
  cases date with
  | none => cases hy
  | some n =>
    have hm := Option.some.inj hm
    exact ⟨n, rfl, Option.some.inj hy, by linarith, Option.some.inj hd⟩

end DeviceMessaging
