import DeviceMessaging.JsNumberText

namespace DeviceMessaging

open DecimalText

/-- `text.split(sep)` of a separator of one character. -/
def splitText (sep : Char) (text : List Char) : List (List Char) :=
  match text with
  | [] => [[]]
  | c :: text =>
    if c = sep then [] :: splitText sep text
    else
      match splitText sep text with
      | [] => [[c]]
      | part :: parts => (c :: part) :: parts

/-- A decimal literal: digits on at least one side of the point, and an exponent or none. -/
def decimalText (text : List Char) : Option ℚ :=
  let whole := text.takeWhile Char.isDigit
  let rest := text.dropWhile Char.isDigit
  let fraction := if rest.head? = some '.' then rest.tail.takeWhile Char.isDigit else []
  let rest := if rest.head? = some '.' then rest.tail.dropWhile Char.isDigit else rest
  if whole = [] ∧ fraction = [] then none
  else
    match finish (whole ++ fraction) fraction.length rest with
    | some (r, []) => some (JsNumber.value ⟨false, r.digits, r.exponent⟩)
    | _ => none

/-- A number of digits in a base, at least one. -/
def radixText (base : Nat) (text : List Char) : Option ℚ :=
  let ds := text.map JsonText.hexValue
  if text ≠ [] ∧ ds.all (fun d => d.any (· < base)) then
    some ((ds.foldl (fun n d => base * n + d.getD 0) 0 : Nat) : ℚ)
  else none

/-- `Number(text)` of a text without white space, where it is finite and not `NaN`. A literal
too large for a double is taken for its value. -/
def numberText (text : List Char) : Option ℚ :=
  match text with
  | '0' :: 'x' :: text | '0' :: 'X' :: text => radixText 16 text
  | '0' :: 'o' :: text | '0' :: 'O' :: text => radixText 8 text
  | '0' :: 'b' :: text | '0' :: 'B' :: text => radixText 2 text
  | '-' :: text => (decimalText text).map fun x => -x
  | '+' :: text => decimalText text
  | text => decimalText text

def trimText (text : List Char) : List Char :=
  ((text.dropWhile JsNumber.isWhiteSpace).reverse.dropWhile JsNumber.isWhiteSpace).reverse

/-- Of a text, or of `undefined`. -/
def toSafeNumberOrNull (text : Option (List Char)) : Option ℚ :=
  text.bind fun text => if trimText text = [] then none else numberText (trimText text)

/-- The text is a whole number in decimal digits. -/
def Spells (text : List Char) (n : Nat) : Prop :=
  text ≠ [] ∧ AllDigits text ∧ DecimalText.value text = n

instance (text : List Char) (n : Nat) : Decidable (Spells text n) :=
  inferInstanceAs (Decidable (_ ∧ _))

theorem splitText_clean {sep : Char} {part : List Char} (h : sep ∉ part) :
    splitText sep part = [part] := by
  induction part with
  | nil => rfl
  | cons c part ih =>
    rw [List.mem_cons, not_or] at h
    rw [splitText, if_neg (Ne.symm h.1), ih h.2]

theorem splitText_append {sep : Char} {part : List Char} (h : sep ∉ part) (rest : List Char) :
    splitText sep (part ++ sep :: rest) = part :: splitText sep rest := by
  induction part with
  | nil =>
    rw [List.nil_append, splitText]
    exact if_pos rfl
  | cons c part ih =>
    rw [List.mem_cons, not_or] at h
    rw [List.cons_append, splitText, if_neg (Ne.symm h.1), ih h.2]

theorem Spells.notMem {text : List Char} {n : Nat} (h : Spells text n) {c : Char}
    (hc : c.isDigit = false) : c ∉ text := by
  intro hm
  rw [h.2.1 c hm] at hc
  cases hc

theorem Spells.append {text text' : List Char} {m n : Nat} (h : Spells text m)
    (h' : Spells text' n) : Spells (text ++ text') (10 ^ text'.length * m + n) := by
  refine ⟨List.append_ne_nil_of_left_ne_nil h.1 _, JsNumber.AllDigits.append h.2.1 h'.2.1, ?_⟩
  rw [value_append, h.2.2, h'.2.2]

theorem trimText_digits {text : List Char} (h : AllDigits text) : trimText text = text := by
  have hkeep : ∀ cs : List Char, AllDigits cs → cs.dropWhile JsNumber.isWhiteSpace = cs := by
    intro cs hcs
    cases cs with
    | nil => rfl
    | cons c cs =>
      refine List.dropWhile_cons_of_neg ?_
      rw [JsNumber.not_whiteSpace_of_digit (hcs c List.mem_cons_self)]
      exact Bool.false_ne_true
  have hrev : AllDigits text.reverse := fun c hc => h c (List.mem_reverse.mp hc)
  unfold trimText
  rw [hkeep text h, hkeep _ hrev, List.reverse_reverse]

theorem decimalText_spells {text : List Char} {n : Nat} (h : Spells text n) :
    decimalText text = some (n : ℚ) := by
  obtain ⟨hne, hd, hv⟩ := h
  obtain ⟨htake, hdrop⟩ := takeWhile_digits hd ended_nil.noDigit
  rw [List.append_nil] at htake hdrop
  have hvalue : JsNumber.value ⟨false, DecimalText.value text, 0⟩ = n := by
    rw [hv, JsNumber.value_eq, if_neg Bool.false_ne_true]
    unfold JsNumber.magnitude
    rw [zpow_zero, mul_one]
  have hfinish : finish (text ++ []) ([] : List Char).length [] =
      some (⟨DecimalText.value text, 0⟩, []) := by
    rw [List.append_nil]
    rfl
  unfold decimalText
  simp only [htake, hdrop, List.head?_nil, reduceCtorEq, if_false, and_true, hne, hfinish, hvalue]

theorem numberText_spells {text : List Char} {n : Nat} (h : Spells text n) :
    numberText text = some (n : ℚ) := by
  have hnot : ∀ c ∈ text, c ≠ '-' ∧ c ≠ '+' ∧ c ∉ ['x', 'X', 'o', 'O', 'b', 'B'] := by
    intro c hc
    have hd := h.2.1 c hc
    refine ⟨?_, ?_, fun hm => ?_⟩
    · rintro rfl
      cases hd
    · rintro rfl
      cases hd
    · simp only [List.mem_cons, List.not_mem_nil, or_false] at hm
      rcases hm with rfl | rfl | rfl | rfl | rfl | rfl <;> cases hd
  unfold numberText
  split
  case h_9 => exact decimalText_spells h
  case h_7 => exact absurd rfl (hnot '-' List.mem_cons_self).1
  case h_8 => exact absurd rfl (hnot '+' List.mem_cons_self).2.1
  all_goals
    have hx := (hnot _ (List.mem_cons_of_mem _ List.mem_cons_self)).2.2
    exact absurd (by decide) hx

/-- Digits are converted to the number they spell. -/
theorem toSafeNumberOrNull_spells {text : List Char} {n : Nat} (h : Spells text n) :
    toSafeNumberOrNull (some text) = some (n : ℚ) := by
  unfold toSafeNumberOrNull
  rw [Option.bind_some, trimText_digits h.2.1, if_neg h.1, numberText_spells h]

theorem padStart_spells (n k : Nat) :
    Spells (List.replicate (k - (Nat.toDigits 10 n).length) '0' ++ Nat.toDigits 10 n) n := by
  refine ⟨List.append_ne_nil_of_right_ne_nil _ Nat.toDigits_ne_nil,
    JsNumber.AllDigits.append (JsNumber.allDigits_zeros _) (allDigits_toDigits n), ?_⟩
  rw [JsNumber.value_zeros]
  exact Nat.ofDigitChars_ten_toDigits

end DeviceMessaging
