import Mathlib.Data.Nat.Notation
import Mathlib.Data.Int.Notation
import Mathlib.Tactic.Ring

namespace DecimalText

def AllDigits (ds : List Char) : Prop :=
  ∀ c ∈ ds, c.isDigit = true

instance (ds : List Char) : Decidable (AllDigits ds) :=
  inferInstanceAs (Decidable (∀ c ∈ ds, c.isDigit = true))

/-- The text goes on with something other than a digit, or ends. -/
def NoDigit (rest : List Char) : Prop :=
  ∀ c ∈ rest.head?, c.isDigit = false

/-- Nor does it go on with a fraction or an exponent. -/
def Ended (rest : List Char) : Prop :=
  ∀ c ∈ rest.head?, c.isDigit = false ∧ c ≠ '.' ∧ c ≠ 'e' ∧ c ≠ 'E'

def value (ds : List Char) : Nat :=
  Nat.ofDigitChars 10 ds 0

def signOf (e : Int) : Char :=
  if e < 0 then '-' else '+'

def exponentText (e : Int) : List Char :=
  signOf e :: Nat.toDigits 10 e.natAbs

def pointPart (fraction : List Char) : List Char :=
  if fraction = [] then [] else '.' :: fraction

def exponentPart (exponent : Option Int) : List Char :=
  match exponent with
  | none => []
  | some e => 'e' :: exponentText e

/-- The literal with these digits before and behind the point, and with an exponent
or without. -/
def literal (whole fraction : List Char) (exponent : Option Int) : List Char :=
  whole ++ (pointPart fraction ++ exponentPart exponent)

/-- What a literal denotes: all its digits, scaled by a power of ten. -/
structure Reading where
  digits : Nat
  exponent : Int
  deriving DecidableEq

/-- An exponent part with its sign, which may be left out. -/
def readSigned (cs : List Char) : Option (Int × List Char) :=
  match cs with
  | [] => none
  | c :: rest =>
    let signed := c = '+' ∨ c = '-'
    let cs := if signed then rest else c :: rest
    match cs.takeWhile Char.isDigit with
    | [] => none
    | es => some (if c = '-' then -(value es : Int) else value es, cs.dropWhile Char.isDigit)

/-- What follows the digits: an exponent, or nothing of the literal. -/
def finish (ds : List Char) (shift : Nat) (cs : List Char) : Option (Reading × List Char) :=
  match cs with
  | [] => some (⟨value ds, -shift⟩, [])
  | c :: rest =>
    if c = 'e' ∨ c = 'E' then
      (readSigned rest).map fun e => (⟨value ds, e.1 - shift⟩, e.2)
    else some (⟨value ds, -shift⟩, c :: rest)

/-- What follows the whole part: a point with at least one digit behind it, or none. -/
def readFraction (whole : List Char) (cs : List Char) : Option (Reading × List Char) :=
  match cs with
  | [] => finish whole 0 []
  | c :: rest =>
    if c = '.' then
      match rest.takeWhile Char.isDigit with
      | [] => none
      | ds => finish (whole ++ ds) ds.length (rest.dropWhile Char.isDigit)
    else finish whole 0 (c :: rest)

/-- The literal a text begins with: its whole part is a zero, or begins with another
digit. -/
def scan (cs : List Char) : Option (Reading × List Char) :=
  match cs with
  | [] => none
  | c :: rest =>
    if c = '0' then readFraction ['0'] rest
    else
      match (c :: rest).takeWhile Char.isDigit with
      | [] => none
      | ds => readFraction ds ((c :: rest).dropWhile Char.isDigit)

/-- The digits a text begins with. -/
def scanWhole (cs : List Char) : Option Nat :=
  match cs.takeWhile Char.isDigit with
  | [] => none
  | ds => some (value ds)

theorem takeWhile_digits {ds rest : List Char} (hd : AllDigits ds) (hr : NoDigit rest) :
    (ds ++ rest).takeWhile Char.isDigit = ds ∧ (ds ++ rest).dropWhile Char.isDigit = rest := by
  rw [List.takeWhile_append_of_pos hd, List.dropWhile_append_of_pos hd]
  cases rest with
  | nil => simp
  | cons c rest => simp [hr c rfl]

theorem allDigits_toDigits (n : Nat) : AllDigits (Nat.toDigits 10 n) :=
  fun _ hc => Nat.isDigit_of_mem_toDigits (by decide) (by decide) hc

theorem Ended.noDigit {rest : List Char} (hr : Ended rest) : NoDigit rest :=
  fun c hc => (hr c hc).1

theorem readSigned_exponentText (e : Int) {rest : List Char} (hr : NoDigit rest) :
    readSigned (exponentText e ++ rest) = some (e, rest) := by
  obtain ⟨htake, hdrop⟩ := takeWhile_digits (allDigits_toDigits e.natAbs) hr
  have hne : Nat.toDigits 10 e.natAbs ≠ [] := Nat.toDigits_ne_nil
  have hval : value (Nat.toDigits 10 e.natAbs) = e.natAbs := Nat.ofDigitChars_ten_toDigits
  have hsign : signOf e = '+' ∨ signOf e = '-' := by
    unfold signOf
    split
    · exact .inr rfl
    · exact .inl rfl
  unfold exponentText
  rw [List.cons_append, readSigned]
  simp only [hsign, if_true, htake, hdrop]
  cases hes : Nat.toDigits 10 e.natAbs with
  | nil => exact absurd hes hne
  | cons d ds =>
    rw [← hes, hval]
    unfold signOf
    by_cases he : e < 0
    · simp only [he, if_true, Option.some.injEq, Prod.mk.injEq, and_true]
      omega
    · simp only [he, if_false, Char.reduceEq, Option.some.injEq, Prod.mk.injEq, and_true]
      omega

theorem noDigit_exponentPart (exponent : Option Int) {rest : List Char} (hr : Ended rest) :
    NoDigit (exponentPart exponent ++ rest) := by
  cases exponent with
  | none => exact hr.noDigit
  | some e =>
    intro c hc
    cases hc
    decide

theorem noDigit_pointPart (fraction : List Char) (exponent : Option Int) {rest : List Char}
    (hr : Ended rest) : NoDigit (pointPart fraction ++ (exponentPart exponent ++ rest)) := by
  unfold pointPart
  split
  · exact noDigit_exponentPart exponent hr
  · intro c hc
    cases hc
    decide

theorem finish_exponentPart (ds : List Char) (shift : Nat) (exponent : Option Int)
    {rest : List Char} (hr : Ended rest) :
    finish ds shift (exponentPart exponent ++ rest) =
      some (⟨value ds, exponent.getD 0 - shift⟩, rest) := by
  cases exponent with
  | none =>
    cases rest with
    | nil => simp [exponentPart, finish]
    | cons c rest =>
      obtain ⟨-, -, he, hE⟩ := hr c rfl
      simp [exponentPart, finish, he, hE]
  | some e =>
    rw [exponentPart, List.cons_append, finish]
    simp only [true_or, if_true]
    rw [readSigned_exponentText e hr.noDigit]
    rfl

theorem readFraction_other (whole : List Char) {cs : List Char} (hcs : cs.head? ≠ some '.') :
    readFraction whole cs = finish whole 0 cs := by
  cases cs with
  | nil => rfl
  | cons c cs => exact if_neg fun hc => hcs (congrArg some hc)

/-- Behind its whole part a literal goes on as it was written. -/
theorem readFraction_literal (whole : List Char) {fraction : List Char} (exponent : Option Int)
    {rest : List Char} (hf : AllDigits fraction) (hr : Ended rest) :
    readFraction whole (pointPart fraction ++ (exponentPart exponent ++ rest)) =
      some (⟨value (whole ++ fraction), exponent.getD 0 - fraction.length⟩, rest) := by
  have hfinish := fun ds shift => finish_exponentPart ds shift exponent hr
  cases fraction with
  | nil =>
    have hhead : (exponentPart exponent ++ rest).head? ≠ some '.' := by
      cases exponent with
      | none => exact fun hc => (hr '.' hc).2.1 rfl
      | some e => exact fun hc => nomatch hc
    rw [pointPart, if_pos rfl, List.nil_append, List.append_nil, readFraction_other whole hhead,
      hfinish]
    rfl
  | cons d ds =>
    obtain ⟨htake, hdrop⟩ := takeWhile_digits hf (noDigit_exponentPart exponent hr)
    have hsplit : pointPart (d :: ds) ++ (exponentPart exponent ++ rest) =
        '.' :: (d :: ds ++ (exponentPart exponent ++ rest)) := rfl
    rw [hsplit, readFraction, if_pos rfl, htake, hdrop]
    exact hfinish _ _

/-- A literal is read as what it denotes. -/
theorem scan_literal {whole fraction : List Char} {exponent : Option Int} {rest : List Char}
    (hw : AllDigits whole) (hlead : whole = ['0'] ∨ ∃ c ds, whole = c :: ds ∧ c ≠ '0')
    (hf : AllDigits fraction) (hr : Ended rest) :
    scan (literal whole fraction exponent ++ rest) =
      some (⟨value (whole ++ fraction), exponent.getD 0 - fraction.length⟩, rest) := by
  have hread := readFraction_literal whole exponent hf hr
  unfold literal
  rw [List.append_assoc, List.append_assoc]
  rcases hlead with rfl | ⟨c, ds, rfl, hc⟩
  · exact hread
  · obtain ⟨htake, hdrop⟩ := takeWhile_digits hw (noDigit_pointPart fraction exponent hr)
    rw [List.cons_append] at htake hdrop ⊢
    rw [scan, if_neg hc, htake, hdrop]
    exact hread

theorem ended_nil : Ended [] :=
  fun _ hc => nomatch hc

theorem isDigit_lt {c : Char} (hc : c.isDigit = true) : c.toNat - '0'.toNat < 10 := by
  have h : c.val ≥ 48 ∧ c.val ≤ 57 := by simpa [Char.isDigit] using hc
  have h' : c.toNat ≤ 57 := h.2
  have h0 : '0'.toNat = 48 := rfl
  omega

theorem value_append (ds es : List Char) : value (ds ++ es) = 10 ^ es.length * value ds + value es := by
  unfold value
  rw [Nat.ofDigitChars_append, Nat.ofDigitChars_eq_ofDigitChars_zero]

theorem value_cons (c : Char) (ds : List Char) :
    value (c :: ds) = 10 ^ ds.length * (c.toNat - '0'.toNat) + value ds := by
  unfold value
  rw [Nat.ofDigitChars_cons, Nat.ofDigitChars_eq_ofDigitChars_zero, Nat.mul_zero, Nat.zero_add]

theorem value_lt {ds : List Char} (hd : AllDigits ds) : value ds < 10 ^ ds.length := by
  induction ds with
  | nil => decide
  | cons c ds ih =>
    have hc := isDigit_lt (hd c List.mem_cons_self)
    have hds := ih fun d hm => hd d (List.mem_cons_of_mem _ hm)
    rw [value_cons, List.length_cons, Nat.pow_succ]
    have hmul : 10 ^ ds.length * (c.toNat - '0'.toNat) ≤ 10 ^ ds.length * 9 :=
      Nat.mul_le_mul_left _ (by omega)
    omega

end DecimalText
