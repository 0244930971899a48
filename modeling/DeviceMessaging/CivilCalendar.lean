import Mathlib.Data.Nat.Find
import Mathlib.Order.SuccPred.IntervalSucc
import Mathlib.Data.Int.SuccPred
import Mathlib.Data.Int.Order.Basic
import Mathlib.Tactic.IntervalCases

/-! The proleptic Gregorian calendar. Days are counted from the first of January of the
year zero. -/

namespace CivilCalendar

def IsLeap (y : Int) : Prop :=
  y % 4 = 0 ∧ (y % 100 ≠ 0 ∨ y % 400 = 0)

instance (y : Int) : Decidable (IsLeap y) :=
  inferInstanceAs (Decidable (_ ∧ _))

/-- The days of the years before. -/
def daysBeforeYear (y : Int) : Int :=
  365 * y + (y + 3) / 4 - (y + 99) / 100 + (y + 399) / 400

def leapDay (y : Int) : Nat :=
  if IsLeap y then 1 else 0

/-- The days of a year before its month, the months counted from zero. -/
def daysBeforeMonth (y : Int) (k : Nat) : Nat :=
  match k with
  | 0 => 0
  | 1 => 31
  | 2 => 59 + leapDay y
  | 3 => 90 + leapDay y
  | 4 => 120 + leapDay y
  | 5 => 151 + leapDay y
  | 6 => 181 + leapDay y
  | 7 => 212 + leapDay y
  | 8 => 243 + leapDay y
  | 9 => 273 + leapDay y
  | 10 => 304 + leapDay y
  | 11 => 334 + leapDay y
  | _ => 365 + leapDay y

@[ext]
structure Date where
  year : Int
  /-- From one to twelve. -/
  month : Nat
  day : Nat
  deriving DecidableEq

def daysInMonth (y : Int) (month : Nat) : Nat :=
  daysBeforeMonth y month - daysBeforeMonth y (month - 1)

/-- The date is one of the calendar. -/
def Date.Valid (d : Date) : Prop :=
  1 ≤ d.month ∧ d.month ≤ 12 ∧ 1 ≤ d.day ∧ d.day ≤ daysInMonth d.year d.month

instance (d : Date) : Decidable d.Valid :=
  inferInstanceAs (Decidable (_ ∧ _))

def Date.dayNumber (d : Date) : Int :=
  daysBeforeYear d.year + daysBeforeMonth d.year (d.month - 1) + d.day - 1

/-- Years repeat after four hundred, and so do the days. -/
def cycle : Int := 146097

def yearOfDay (n : Int) : Int :=
  400 * (n / cycle) + Nat.findGreatest (fun k => daysBeforeYear k ≤ n % cycle) 399

def dayOfYear (n : Int) : Nat :=
  (n - daysBeforeYear (yearOfDay n)).toNat

def monthOfDay (n : Int) : Nat :=
  Nat.findGreatest (fun k => daysBeforeMonth (yearOfDay n) k ≤ dayOfYear n) 11

/-- The date of a day. -/
def civilOfDay (n : Int) : Date where
  year := yearOfDay n
  month := monthOfDay n + 1
  day := dayOfYear n - daysBeforeMonth (yearOfDay n) (monthOfDay n) + 1

/-- The day of the week, Sunday being zero. -/
def weekday (n : Int) : Int :=
  (n + 6) % 7

theorem daysBeforeYear_succ (y : Int) :
    daysBeforeYear (y + 1) = daysBeforeYear y + 365 + leapDay y := by
  unfold daysBeforeYear leapDay
  by_cases h : IsLeap y
  · rw [if_pos h]
    unfold IsLeap at h
    omega
  · rw [if_neg h]
    unfold IsLeap at h
    omega

theorem daysBeforeYear_cycle (e k : Int) :
    daysBeforeYear (400 * e + k) = cycle * e + daysBeforeYear k := by
  unfold daysBeforeYear cycle
  omega

theorem daysBeforeYear_lt {y z : Int} : daysBeforeYear y < daysBeforeYear z ↔ y < z := by
  have mono : StrictMono daysBeforeYear := by
    apply strictMono_int_of_lt_succ
    intro y
    have h := daysBeforeYear_succ y
    omega
  exact mono.lt_iff_lt

theorem daysBeforeMonth_year (y : Int) : daysBeforeMonth y 12 = 365 + leapDay y :=
  rfl

theorem daysBeforeMonth_lt (y : Int) {k : Nat} (hk : k < 12) :
    daysBeforeMonth y k < daysBeforeMonth y (k + 1) := by
  have hl : leapDay y ≤ 1 := by
    unfold leapDay
    split <;> decide
  interval_cases k <;> simp only [daysBeforeMonth] <;> omega

theorem daysBeforeMonth_mono (y : Int) {j k : Nat} (hjk : j ≤ k) (hk : k ≤ 12) :
    daysBeforeMonth y j ≤ daysBeforeMonth y k := by
  induction k with
  | zero => rw [Nat.le_zero.mp hjk]
  | succ k ih =>
    rcases Nat.lt_or_eq_of_le hjk with h | h
    · exact (ih (by omega) (by omega)).trans (daysBeforeMonth_lt y (by omega)).le
    · rw [h]

/-- The step of a staircase that a number stands on. -/
theorem findGreatest_step {f : Nat → Int} {x : Int} {n : Nat} (h0 : f 0 ≤ x)
    (hn : x < f (n + 1)) :
    let k := Nat.findGreatest (fun k => f k ≤ x) n
    k ≤ n ∧ f k ≤ x ∧ x < f (k + 1) := by
  intro k
  have hk : k ≤ n := Nat.findGreatest_le n
  refine ⟨hk, Nat.findGreatest_spec (P := fun k => f k ≤ x) (Nat.zero_le n) h0, ?_⟩
  by_contra hle
  rcases Nat.lt_or_eq_of_le hk with h | h
  · exact Nat.findGreatest_is_greatest (Nat.lt_succ_self k) h (not_lt.mp hle)
  · rw [h] at hle
    exact hle hn

/-- A day falls in its year. -/
theorem yearOfDay_spec (n : Int) :
    daysBeforeYear (yearOfDay n) ≤ n ∧ n < daysBeforeYear (yearOfDay n + 1) := by
  have hpos : (0 : Int) < cycle := by decide
  have h0 := Int.emod_nonneg n hpos.ne'
  have hlt := Int.emod_lt_of_pos n hpos
  have hdiv := Int.mul_ediv_add_emod n cycle
  have hzero : daysBeforeYear 0 = 0 := by decide
  have hend : daysBeforeYear 400 = cycle := by decide
  obtain ⟨-, hle, hgt⟩ := findGreatest_step (f := fun k => daysBeforeYear k) (x := n % cycle)
    (n := 399) (by rw [Int.natCast_zero, hzero]; exact h0) (by rw [← hend] at hlt; exact hlt)
  unfold yearOfDay
  rw [Int.add_assoc, daysBeforeYear_cycle, daysBeforeYear_cycle]
  push_cast at hgt
  omega

theorem dayOfYear_eq (n : Int) :
    (dayOfYear n : Int) = n - daysBeforeYear (yearOfDay n) ∧
      dayOfYear n < 365 + leapDay (yearOfDay n) := by
  have h := yearOfDay_spec n
  have hsucc := daysBeforeYear_succ (yearOfDay n)
  unfold dayOfYear
  omega

theorem monthOfDay_spec (n : Int) :
    monthOfDay n ≤ 11 ∧ daysBeforeMonth (yearOfDay n) (monthOfDay n) ≤ dayOfYear n ∧
      dayOfYear n < daysBeforeMonth (yearOfDay n) (monthOfDay n + 1) := by
  have hlt := (dayOfYear_eq n).2
  have hstep := findGreatest_step (f := fun k => (daysBeforeMonth (yearOfDay n) k : Int))
    (x := dayOfYear n) (n := 11) (by exact_mod_cast Nat.zero_le _) (by exact_mod_cast hlt)
  simp only [Nat.cast_le, Nat.cast_lt] at hstep
  exact hstep

/-- Every day has a date of the calendar. -/
theorem civilOfDay_valid (n : Int) : (civilOfDay n).Valid := by
  obtain ⟨hm, hle, hlt⟩ := monthOfDay_spec n
  refine ⟨Nat.le_add_left _ _, Nat.succ_le_succ hm, Nat.le_add_left _ _, ?_⟩
  change dayOfYear n - daysBeforeMonth (yearOfDay n) (monthOfDay n) + 1 ≤
    daysBeforeMonth (yearOfDay n) (monthOfDay n + 1) -
      daysBeforeMonth (yearOfDay n) (monthOfDay n + 1 - 1)
  rw [Nat.add_sub_cancel]
  omega

theorem dayNumber_civilOfDay (n : Int) : (civilOfDay n).dayNumber = n := by
  obtain ⟨-, hle, -⟩ := monthOfDay_spec n
  have hday := (dayOfYear_eq n).1
  unfold Date.dayNumber civilOfDay
  dsimp only
  rw [Nat.add_sub_cancel]
  omega

theorem Date.Valid.bounds {d : Date} (hd : d.Valid) :
    daysBeforeMonth d.year (d.month - 1) + d.day ≤ daysBeforeMonth d.year d.month ∧
      daysBeforeYear d.year ≤ d.dayNumber ∧ d.dayNumber < daysBeforeYear (d.year + 1) := by
  obtain ⟨hm, hm', hday, hday'⟩ := hd
  have hsucc := daysBeforeYear_succ d.year
  have hmono := daysBeforeMonth_mono d.year hm' (Nat.le_refl 12)
  rw [daysBeforeMonth_year] at hmono
  unfold daysInMonth at hday'
  unfold Date.dayNumber
  omega

/-- Different dates are different days. -/
theorem dayNumber_injective {d d' : Date} (hd : d.Valid) (hd' : d'.Valid)
    (h : d.dayNumber = d'.dayNumber) : d = d' := by
  obtain ⟨hb, hlo, hhi⟩ := hd.bounds
  obtain ⟨hb', hlo', hhi'⟩ := hd'.bounds
  have hyear : d.year = d'.year := by
    have h₁ := daysBeforeYear_lt.mp (show daysBeforeYear d.year <
      daysBeforeYear (d'.year + 1) by omega)
    have h₂ := daysBeforeYear_lt.mp (show daysBeforeYear d'.year <
      daysBeforeYear (d.year + 1) by omega)
    omega
  obtain ⟨hm, hm', hday, -⟩ := hd
  obtain ⟨hn, hn', hday', -⟩ := hd'
  unfold Date.dayNumber at h
  have hmonth : d.month = d'.month := by
    rcases Nat.lt_trichotomy d.month d'.month with hlt | he | hlt
    · have hmono := daysBeforeMonth_mono d.year (by omega : d.month ≤ d'.month - 1) (by omega)
      rw [← hyear] at h
      omega
    · exact he
    · have hmono := daysBeforeMonth_mono d.year (by omega : d'.month ≤ d.month - 1) (by omega)
      rw [← hyear] at h hb'
      omega
  rw [hyear, hmonth] at h
  have hdays : d.day = d'.day := by omega
  exact Date.ext hyear hmonth hdays

theorem civilOfDay_dayNumber {d : Date} (hd : d.Valid) : civilOfDay d.dayNumber = d :=
  dayNumber_injective (civilOfDay_valid _) hd (dayNumber_civilOfDay _)

end CivilCalendar
