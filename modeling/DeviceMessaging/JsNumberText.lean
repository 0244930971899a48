import DeviceMessaging.DecimalText
import DeviceMessaging.JsNumbers
import DeviceMessaging.JsonText

namespace DeviceMessaging

open DecimalText JsonText

namespace JsNumber

/-- The form every finite number has: no significant digit is a trailing zero, and zero
itself has one form, which `===` does not tell from negative zero. -/
def Canonical (x : JsNumber) : Prop :=
  x.significand % 10 ≠ 0 ∨ (x.significand = 0 ∧ x.exponent = 0 ∧ x.negative = false)

instance (x : JsNumber) : Decidable x.Canonical :=
  inferInstanceAs (Decidable (_ ∨ _))

/-- Trailing zeros of the digits go into the exponent. -/
def stripZeros (fuel : Nat) (negative : Bool) (n : Nat) (e : Int) : JsNumber :=
  match fuel with
  | 0 => ⟨negative, n, e⟩
  | fuel + 1 =>
    if n % 10 = 0 then stripZeros fuel negative (n / 10) (e + 1) else ⟨negative, n, e⟩

def normalise (negative : Bool) (n : Nat) (e : Int) : JsNumber :=
  if n = 0 then ⟨false, 0, 0⟩ else stripZeros n negative n e

def ofNat (n : Nat) : JsNumber :=
  normalise false n 0

section Printing

variable (x : JsNumber)

def digitsText : List Char :=
  Nat.toDigits 10 x.significand

/-- Where the point stands among the digits. -/
def point : Int :=
  x.digits + x.exponent

/-- The digits before the point, of `Number::toString`. -/
def wholeText : List Char :=
  if 0 < x.point ∧ x.point ≤ 21 then
    if 0 ≤ x.exponent then x.digitsText ++ List.replicate x.exponent.toNat '0'
    else x.digitsText.take x.point.toNat
  else if -6 < x.point ∧ x.point ≤ 0 then ['0']
  else x.digitsText.take 1

/-- The digits behind the point. -/
def fractionText : List Char :=
  if 0 < x.point ∧ x.point ≤ 21 then
    if 0 ≤ x.exponent then [] else x.digitsText.drop x.point.toNat
  else if -6 < x.point ∧ x.point ≤ 0 then List.replicate (-x.point).toNat '0' ++ x.digitsText
  else x.digitsText.drop 1

/-- The exponent, of a number too large or too small to be written without. -/
def scale : Option Int :=
  if (0 < x.point ∧ x.point ≤ 21) ∨ (-6 < x.point ∧ x.point ≤ 0) then none else some (x.point - 1)

def unsignedText : List Char :=
  literal x.wholeText x.fractionText x.scale

/-- `String(x)`. -/
def text : List Char :=
  if x.negative then '-' :: x.unsignedText else x.unsignedText

end Printing

def ofReading (negative : Bool) (r : Reading) : JsNumber :=
  normalise negative r.digits r.exponent

/-- The number a JSON text begins with. -/
def scanNumber (cs : List Char) : Option (JsNumber × List Char) :=
  match cs with
  | [] => none
  | c :: rest =>
    if c = '-' then (scan rest).map fun r => (ofReading true r.1, r.2)
    else (scan (c :: rest)).map fun r => (ofReading false r.1, r.2)

/-- Numbers in JSON. A literal with more digits than a double holds is not rounded. -/
def format : NumberFormat JsNumber where
  print := text
  scan := scanNumber

/-- What JavaScript takes for white space at the beginning of a text. -/
def isWhiteSpace (c : Char) : Bool :=
  let n := c.toNat
  (9 ≤ n && n ≤ 13) || n = 32 || n = 160 || n = 5760 || (8192 ≤ n && n ≤ 8202) || n = 8232 ||
    n = 8233 || n = 8239 || n = 8287 || n = 12288 || n = 65279

/-- The hexadecimal digits a text begins with. -/
def scanHex (cs : List Char) : Option Nat :=
  match (cs.map hexValue).takeWhile Option.isSome with
  | [] => none
  | ds => some (ds.foldl (fun n d => 16 * n + d.getD 0) 0)

/-- The digits behind a sign: hexadecimal ones after `0x`. -/
def parseUnsigned (cs : List Char) : Option Nat :=
  match cs with
  | '0' :: 'x' :: rest => scanHex rest
  | '0' :: 'X' :: rest => scanHex rest
  | cs => scanWhole cs

/-- `parseInt` of a text. -/
def parseIntText (cs : List Char) : ParsedInt :=
  match cs.dropWhile isWhiteSpace with
  | [] => none
  | c :: rest =>
    if c = '-' then (parseUnsigned rest).map fun n : Nat => -(n : Int)
    else if c = '+' then (parseUnsigned rest).map Int.ofNat
    else (parseUnsigned (c :: rest)).map Int.ofNat

variable {x : JsNumber}

theorem stripZeros_scaled {n : Nat} (negative : Bool) (fuel k : Nat) (e : Int) (hn : n % 10 ≠ 0) :
    stripZeros (k + fuel) negative (n * 10 ^ k) e = ⟨negative, n, e + k⟩ := by
  induction k generalizing e with
  | zero =>
    rw [Nat.zero_add, Nat.pow_zero, Nat.mul_one, Int.natCast_zero, Int.add_zero]
    cases fuel with
    | zero => rfl
    | succ fuel => exact if_neg hn
  | succ k ih =>
    have hmul : n * 10 ^ (k + 1) = n * 10 ^ k * 10 := by rw [Nat.pow_succ, Nat.mul_assoc]
    rw [Nat.succ_add, stripZeros, hmul, if_pos (Nat.mul_mod_left _ _),
      Nat.mul_div_cancel _ (by decide), ih]
    congr 1
    omega

/-- Scaled digits are the number again. -/
theorem normalise_scaled (hx : x.Canonical) (k : Nat) :
    normalise x.negative (x.significand * 10 ^ k) (x.exponent - k) = x := by
  obtain ⟨negative, n, e⟩ := x
  rcases hx with hn | ⟨hn, he, hs⟩
  · have hn : n % 10 ≠ 0 := hn
    have hpos : 0 < n := by omega
    have hk : k ≤ n * 10 ^ k :=
      (Nat.lt_pow_self (by decide : 1 < 10)).le.trans (Nat.le_mul_of_pos_left _ hpos)
    obtain ⟨fuel, hfuel⟩ := Nat.exists_eq_add_of_le hk
    have hne : n * 10 ^ k ≠ 0 := Nat.mul_ne_zero (by omega) (by positivity)
    have hstrip := stripZeros_scaled negative fuel k (e - k) hn
    rw [← hfuel, Int.sub_add_cancel] at hstrip
    exact (if_neg hne).trans hstrip
  · have hn : n = 0 := hn
    have he : e = 0 := he
    have hs : negative = false := hs
    subst hn he hs
    exact if_pos (Nat.zero_mul _)

theorem digits_pos (x : JsNumber) : 0 < x.digits :=
  Nat.length_toDigits_pos

theorem allDigits_digitsText (x : JsNumber) : AllDigits x.digitsText :=
  allDigits_toDigits _

theorem value_digitsText (x : JsNumber) : DecimalText.value x.digitsText = x.significand :=
  Nat.ofDigitChars_ten_toDigits

/-- The digits of a number other than zero begin with another digit than zero. -/
theorem digitsText_head (hx : x.significand ≠ 0) : ∃ c ds, x.digitsText = c :: ds ∧ c ≠ '0' := by
  have hlen : x.digitsText.length = x.digits := rfl
  have hall := allDigits_digitsText x
  have hval := value_digitsText x
  cases hds : x.digitsText with
  | nil =>
    rw [hds] at hlen
    exact absurd hlen x.digits_pos.ne
  | cons c ds =>
    refine ⟨c, ds, rfl, ?_⟩
    rintro rfl
    rw [hds] at hlen hall hval
    have hlt := value_lt fun c hc => hall c (List.mem_cons_of_mem _ hc)
    have hle := le_significand hx
    have hzero : DecimalText.value ('0' :: ds) = DecimalText.value ds := by
      rw [value_cons, Nat.sub_self, Nat.mul_zero, Nat.zero_add]
    rw [← hlen, List.length_cons, Nat.add_sub_cancel, ← hval, hzero] at hle
    exact absurd hlt (Nat.not_lt.mpr hle)

theorem value_zeros (k : Nat) (ds : List Char) :
    DecimalText.value (List.replicate k '0' ++ ds) = DecimalText.value ds := by
  induction k with
  | zero => rfl
  | succ k ih =>
    rw [List.replicate_succ, List.cons_append, value_cons, Nat.sub_self, Nat.mul_zero, Nat.zero_add,
      ih]

theorem allDigits_zeros (k : Nat) : AllDigits (List.replicate k '0') := by
  intro c hc
  rw [List.eq_of_mem_replicate hc]
  decide

theorem AllDigits.append {ds es : List Char} (hd : AllDigits ds) (he : AllDigits es) :
    AllDigits (ds ++ es) := by
  intro c hc
  rcases List.mem_append.mp hc with h | h
  · exact hd c h
  · exact he c h

theorem allDigits_wholeText (x : JsNumber) : AllDigits x.wholeText := by
  have hall := allDigits_digitsText x
  unfold wholeText
  split_ifs
  · exact AllDigits.append hall (allDigits_zeros _)
  · exact fun c hc => hall c (List.mem_of_mem_take hc)
  · exact allDigits_zeros 1
  · exact fun c hc => hall c (List.mem_of_mem_take hc)

theorem allDigits_fractionText (x : JsNumber) : AllDigits x.fractionText := by
  have hall := allDigits_digitsText x
  unfold fractionText
  split_ifs
  · exact fun c hc => nomatch hc
  · exact fun c hc => hall c (List.mem_of_mem_drop hc)
  · exact AllDigits.append (allDigits_zeros _) hall
  · exact fun c hc => hall c (List.mem_of_mem_drop hc)

theorem head_take {ds : List Char} {k : Nat} (hk : 0 < k)
    (hd : ∃ c es, ds = c :: es ∧ c ≠ '0') : ∃ c es, ds.take k = c :: es ∧ c ≠ '0' := by
  obtain ⟨c, es, rfl, hc⟩ := hd
  obtain ⟨k, rfl⟩ := Nat.exists_eq_succ_of_ne_zero hk.ne'
  exact ⟨c, es.take k, rfl, hc⟩

/-- The whole part is a zero alone, or does not begin with one. -/
theorem wholeText_head (hx : x.Canonical) :
    x.wholeText = ['0'] ∨ ∃ c ds, x.wholeText = c :: ds ∧ c ≠ '0' := by
  rcases hx with hn | ⟨hn, he, hs⟩
  · have hhead := digitsText_head (x := x) (by omega)
    unfold wholeText
    split_ifs
    next =>
      obtain ⟨c, ds, hds, hc⟩ := hhead
      exact .inr ⟨c, _, by rw [hds, List.cons_append], hc⟩
    next hp _ => exact .inr (head_take (by omega) hhead)
    next => exact .inl rfl
    next => exact .inr (head_take Nat.one_pos hhead)
  · obtain ⟨negative, n, e⟩ := x
    have hn : n = 0 := hn
    have he : e = 0 := he
    subst hn he
    refine .inl ?_
    simp [wholeText, point, digits, digitsText]

theorem wholeText_ne_nil (hx : x.Canonical) : x.wholeText ≠ [] := by
  rcases wholeText_head hx with h | ⟨c, ds, h, -⟩ <;> rw [h] <;> exact List.cons_ne_nil _ _

theorem value_append_zeros (ds : List Char) (k : Nat) :
    DecimalText.value (ds ++ List.replicate k '0') = DecimalText.value ds * 10 ^ k := by
  have hzero := value_zeros k []
  rw [List.append_nil] at hzero
  rw [value_append, List.length_replicate, hzero]
  exact Nat.mul_comm _ _

/-- The digits written, and the power of ten they stand for. -/
theorem written_digits (x : JsNumber) :
    ∃ k : Nat, DecimalText.value (x.wholeText ++ x.fractionText) = x.significand * 10 ^ k ∧
      x.scale.getD 0 - x.fractionText.length = x.exponent - k := by
  have hlen : x.digitsText.length = x.digits := rfl
  have hpos := x.digits_pos
  have hpoint : x.point = x.digits + x.exponent := rfl
  have hval := value_digitsText x
  unfold wholeText fractionText scale
  by_cases hplain : 0 < x.point ∧ x.point ≤ 21
  · by_cases he : 0 ≤ x.exponent
    · simp only [if_pos hplain, if_pos he, if_pos (Or.inl hplain)]
      refine ⟨x.exponent.toNat, ?_, ?_⟩
      · rw [List.append_nil, value_append_zeros, hval]
      · rw [Option.getD_none, List.length_nil]
        omega
    · simp only [if_pos hplain, if_neg he, if_pos (Or.inl hplain)]
      refine ⟨0, ?_, ?_⟩
      · rw [List.take_append_drop, hval, Nat.pow_zero, Nat.mul_one]
      · rw [Option.getD_none, List.length_drop]
        omega
  · by_cases hsmall : -6 < x.point ∧ x.point ≤ 0
    · simp only [if_neg hplain, if_pos hsmall, if_pos (Or.inr hsmall)]
      have hzeros := value_zeros ((-x.point).toNat + 1) x.digitsText
      rw [List.replicate_succ, List.cons_append] at hzeros
      refine ⟨0, ?_, ?_⟩
      · rw [List.singleton_append, hzeros, hval, Nat.pow_zero, Nat.mul_one]
      · rw [Option.getD_none, List.length_append, List.length_replicate]
        omega
    · simp only [if_neg hplain, if_neg hsmall, if_neg (not_or.mpr ⟨hplain, hsmall⟩)]
      refine ⟨0, ?_, ?_⟩
      · rw [List.take_append_drop, hval, Nat.pow_zero, Nat.mul_one]
      · rw [Option.getD_some, List.length_drop]
        omega

theorem ended_of_not_continues {rest : List Char}
    (hr : ∀ c ∈ rest.head?, continuesNumber c = false) : DecimalText.Ended rest := by
  intro c hc
  have h := hr c hc
  unfold continuesNumber at h
  simp only [Bool.or_eq_false_iff, decide_eq_false_iff_not] at h
  exact ⟨h.1.1.1, h.1.1.2, h.1.2, h.2⟩

theorem scan_unsignedText (hx : x.Canonical) {rest : List Char} (hr : DecimalText.Ended rest) :
    (scan (x.unsignedText ++ rest)).map (fun r => (ofReading x.negative r.1, r.2)) =
      some (x, rest) := by
  obtain ⟨k, hdigits, hscale⟩ := written_digits x
  unfold unsignedText
  rw [scan_literal (allDigits_wholeText x) (wholeText_head hx) (allDigits_fractionText x) hr,
    Option.map_some, hdigits, hscale]
  unfold ofReading
  rw [normalise_scaled hx]

/-- An unsigned text begins with a digit. -/
theorem unsignedText_head (hx : x.Canonical) :
    ∃ c cs, x.unsignedText = c :: cs ∧ c.isDigit = true := by
  have hall := allDigits_wholeText x
  cases hw : x.wholeText with
  | nil => exact absurd hw (wholeText_ne_nil hx)
  | cons c ds =>
    refine ⟨c, ds ++ (pointPart x.fractionText ++ exponentPart x.scale), ?_,
      hall c (by rw [hw]; exact List.mem_cons_self)⟩
    unfold unsignedText literal
    rw [hw, List.cons_append]

/-- A number is read from a JSON text as it was written. -/
theorem format_faithful (hx : x.Canonical) : format.Faithful x where
  begins := by
    obtain ⟨c, cs, hcs, hc⟩ := unsignedText_head hx
    change ∃ c cs, x.text = c :: cs ∧ beginsNumber c = true
    unfold text beginsNumber
    split
    · exact ⟨'-', _, rfl, by decide⟩
    · exact ⟨c, cs, hcs, by rw [hc, Bool.true_or]⟩
  scan_print rest hrest := by
    have hscan := scan_unsignedText hx (ended_of_not_continues hrest)
    obtain ⟨c, cs, hcs, hc⟩ := unsignedText_head hx
    change scanNumber (x.text ++ rest) = some (x, rest)
    unfold text
    cases hsign : x.negative with
    | true =>
      rw [hsign] at hscan
      rw [if_pos rfl, List.cons_append, scanNumber, if_pos rfl]
      exact hscan
    | false =>
      have hne : c ≠ '-' := by
        rintro rfl
        cases hc
      rw [hsign, hcs, List.cons_append] at hscan
      rw [if_neg Bool.false_ne_true, hcs, List.cons_append, scanNumber, if_neg hne]
      exact hscan

theorem not_whiteSpace_of_digit {c : Char} (hc : c.isDigit = true) : isWhiteSpace c = false := by
  have h : c.val ≥ 48 ∧ c.val ≤ 57 := by simpa [Char.isDigit] using hc
  have h₁ : 48 ≤ c.toNat := h.1
  have h₂ : c.toNat ≤ 57 := h.2
  unfold isWhiteSpace
  simp only [Bool.or_eq_false_iff, Bool.and_eq_false_iff, decide_eq_false_iff_not]
  omega

theorem stripZeros_canonical {fuel n : Nat} (e : Int) (hn : n ≠ 0) (hfuel : n < 10 ^ (fuel + 1)) :
    (stripZeros fuel false n e).significand % 10 ≠ 0 := by
  induction fuel generalizing n e with
  | zero =>
    have hlt : n < 10 := hfuel
    change n % 10 ≠ 0
    omega
  | succ fuel ih =>
    rw [stripZeros]
    split
    next hz =>
      rw [Nat.pow_succ] at hfuel
      exact ih _ (by omega) (by omega)
    next hz => exact hz

theorem ofNat_canonical (n : Nat) : (ofNat n).Canonical := by
  unfold ofNat normalise
  split
  next => exact .inr ⟨rfl, rfl, rfl⟩
  next hn =>
    refine .inl (stripZeros_canonical 0 hn ?_)
    exact (Nat.lt_pow_self (by decide : 1 < 10)).trans
      (Nat.pow_lt_pow_right (by decide) (Nat.lt_succ_self n))

end JsNumber

end DeviceMessaging
