import DeviceMessaging.ReportFields

namespace DeviceMessaging

open ByteSlices DecimalText

namespace Calin

variable {b : List Byte} {bytes : List Byte}

/-- The digits that scrambled bytes hold, the least significant first. -/
def nibbles (bytes : List Byte) : List Nat :=
  bytes.flatMap fun byte => [subtract33H byte % 16, subtract33H byte / 16]

def IsDecimal (bytes : List Byte) : Prop :=
  ∀ d ∈ nibbles bytes, d < 10

instance (bytes : List Byte) : Decidable (IsDecimal bytes) :=
  inferInstanceAs (Decidable (∀ d ∈ nibbles bytes, d < 10))

/-- The number that the digits spell. -/
def spelled (bytes : List Byte) : Nat :=
  Nat.ofDigits 10 (nibbles bytes)

section Digits

theorem nibbles_snoc (bytes : List Byte) (byte : Byte) :
    nibbles (bytes ++ [byte]) = nibbles bytes ++ [subtract33H byte % 16, subtract33H byte / 16] := by
  unfold nibbles
  rw [List.flatMap_append, List.flatMap_singleton]

theorem nibbles_length (bytes : List Byte) : (nibbles bytes).length = 2 * bytes.length := by
  induction bytes using List.reverseRecOn with
  | nil => rfl
  | append_singleton bytes byte ih =>
    rw [nibbles_snoc, List.length_append, ih, List.length_append]
    rfl

theorem isDecimal_snoc {byte : Byte} :
    IsDecimal (bytes ++ [byte]) ↔
      IsDecimal bytes ∧ subtract33H byte % 16 < 10 ∧ subtract33H byte / 16 < 10 := by
  unfold IsDecimal
  rw [nibbles_snoc, List.forall_mem_append]
  simp

theorem spelled_snoc (bytes : List Byte) (byte : Byte) :
    spelled (bytes ++ [byte]) =
      spelled bytes + 100 ^ bytes.length *
        (subtract33H byte % 16 + 10 * (subtract33H byte / 16)) := by
  unfold spelled
  rw [nibbles_snoc, Nat.ofDigits_append, nibbles_length, pow_mul]
  simp [Nat.ofDigits_cons]

theorem spelled_lt (h : IsDecimal bytes) : spelled bytes < 100 ^ bytes.length := by
  have hlt := Nat.ofDigits_lt_base_pow_length (by decide : 1 < 10) h
  rw [nibbles_length, pow_mul] at hlt
  exact hlt

/-- A byte of two decimal digits is printed as their number. -/
theorem value_byte {v : Nat} (hlow : v % 16 < 10) (hhigh : v / 16 < 10) :
    value (Nat.toDigits 10 (v / 16 % 16) ++ Nat.toDigits 10 (v % 16)) =
        v % 16 + 10 * (v / 16) ∧
      (Nat.toDigits 10 (v / 16 % 16) ++ Nat.toDigits 10 (v % 16)).length = 2 := by
  have hmod : v / 16 % 16 = v / 16 := Nat.mod_eq_of_lt (by omega)
  have hvalue : ∀ n, value (Nat.toDigits 10 n) = n := fun _ => Nat.ofDigitChars_ten_toDigits
  have hdigit : ∀ {d}, d < 10 → (Nat.toDigits 10 d).length = 1 := fun h => by
    rw [Nat.toDigits_of_lt_base h]
    rfl
  rw [hmod, value_append, hvalue, hvalue, List.length_append, hdigit hlow, hdigit hhigh]
  omega

/-- Decimal digits are printed as the number they spell. -/
theorem value_bcdText (h : IsDecimal bytes) :
    value (bcdText (bytes.map subtract33H)) = spelled bytes ∧
      (bcdText (bytes.map subtract33H)).length = 2 * bytes.length := by
  induction bytes using List.reverseRecOn with
  | nil => exact ⟨rfl, rfl⟩
  | append_singleton bytes byte ih =>
    obtain ⟨hinit, hlow, hhigh⟩ := isDecimal_snoc.mp h
    obtain ⟨hvalue, hlength⟩ := ih hinit
    obtain ⟨hb, hlen⟩ := value_byte hlow hhigh
    rw [List.map_append, List.map_singleton, bcdText_snoc, value_append, hb, hvalue,
      List.length_append, hlen, hlength, spelled_snoc, List.length_append, List.length_singleton,
      pow_mul]
    constructor <;> ring

/-- The decoder reports what decimal digits spell. -/
theorem bcdToInteger_decimal (hne : bytes ≠ []) (h : IsDecimal bytes) :
    bcdToInteger (bytes.map subtract33H) = some (spelled bytes) := by
  rw [bcdToInteger_some fun hnil => hne (List.map_eq_nil_iff.mp hnil), (value_bcdText h).1]

theorem subtract33H_inj {byte byte' : Byte} (h : subtract33H byte = subtract33H byte') :
    byte = byte' := by
  have hlt := byte.toNat_lt
  have hlt' := byte'.toNat_lt
  unfold subtract33H at h
  apply UInt8.toNat_inj.mp
  omega

theorem nibbles_inj {bytes' : List Byte} (h : nibbles bytes = nibbles bytes') : bytes = bytes' := by
  induction bytes generalizing bytes' with
  | nil =>
    cases bytes' with
    | nil => rfl
    | cons byte' bytes' => cases h
  | cons byte bytes ih =>
    cases bytes' with
    | nil => cases h
    | cons byte' bytes' =>
      obtain ⟨hlow, h⟩ := List.cons.inj h
      obtain ⟨hhigh, h⟩ := List.cons.inj h
      have hbyte : subtract33H byte = subtract33H byte' := by omega
      rw [subtract33H_inj hbyte, ih h]

/-- Decimal digits are those of the number they spell. -/
theorem spelled_inj {bytes' : List Byte} (h : IsDecimal bytes) (h' : IsDecimal bytes')
    (hlen : bytes.length = bytes'.length) (hs : spelled bytes = spelled bytes') :
    bytes = bytes' := by
  have hcount : (nibbles bytes).length = (nibbles bytes').length := by
    rw [nibbles_length, nibbles_length, hlen]
  exact nibbles_inj (Nat.ofDigits_inj_of_len_eq (by decide) hcount h h' hs)

end Digits

section Fields

/-- Where a BCD field stands in a frame, and what it is divided by. -/
structure BcdSpec where
  start : Nat
  stop : Nat
  scale : Nat
  start_lt : start < stop := by decide
  scale_pos : 0 < scale := by decide

/-- The BCD field of a parser that reads one. -/
def Parser.bcd (parser : Parser) : Option BcdSpec :=
  match parser with
  | .readVoltage _ => some { start := 13, stop := 16, scale := 100 }
  | .readPower _ => some { start := 12, stop := 16, scale := 10 }
  | .readCurrent _ => some { start := 12, stop := 14, scale := 100 }
  | .readCredit => some { start := 12, stop := 16, scale := 100 }
  | .readReport | .readDate | .readTime => none

/-- The number that is reported for it. -/
def Reading.amount (r : Reading) : Option ℚ :=
  match r with
  | .voltage v _ => v
  | .power v _ => v
  | .current v _ => v
  | .credit v _ _ => v
  | .report _ | .date .. | .time .. => none

namespace BcdSpec

variable (f : BcdSpec)

def width : Nat :=
  f.stop - f.start

def payload (b : List Byte) : List Byte :=
  slice b f.start f.stop

/-- The field is reported as exactly the number that its digits spell, and only if they are
decimal. -/
structure ExactOrRefused (b : List Byte) (r : Reading) : Prop where
  exact : (f.payload b).length = f.width → IsDecimal (f.payload b) →
    r.amount = some ((spelled (f.payload b) : ℚ) / f.scale)
  refused : r.amount.isSome → IsDecimal (f.payload b)
  below : ∀ v ∈ r.amount, v < (10 : ℚ) ^ (2 * f.width) / f.scale

end BcdSpec

/-- A frame is decoded to a reading by the parser of its identifier. -/
structure ReadBy (parser : Parser) (b : List Byte) (r : Reading) : Prop where
  reading : readingOf b = some r
  identifier : DATA_PROCESSOR_MAP (dataIdentifier b) = some parser

theorem Parser.decode_amount {parser : Parser} {f : BcdSpec} (hf : parser.bcd = some f) :
    (parser.decode b).amount =
      (bcdToInteger ((f.payload b).map subtract33H)).map fun n : Nat => (n : ℚ) / f.scale := by
  cases parser <;> cases hf <;> rfl

/-- A frame read by a parser of a BCD field reports its decoded bytes. -/
theorem amount_eq {r : Reading} {parser : Parser} {f : BcdSpec} (h : ReadBy parser b r)
    (hf : parser.bcd = some f) :
    r.amount = (bcdToInteger ((f.payload b).map subtract33H)).map fun n : Nat => (n : ℚ) / f.scale := by
  obtain ⟨-, -, parser', -, -, hparser, rfl⟩ := passes_of_readingOf h.reading
  obtain rfl : parser' = parser := Option.some.inj (hparser.symm.trans h.identifier)
  exact Parser.decode_amount hf

theorem payload_length (f : BcdSpec) (b : List Byte) : (f.payload b).length ≤ f.width :=
  slice_length_le b f.start f.stop

theorem amount_decimal {r : Reading} {parser : Parser} {f : BcdSpec} (h : ReadBy parser b r)
    (hf : parser.bcd = some f)
    (hne : f.payload b ≠ []) (hd : IsDecimal (f.payload b)) :
    r.amount = some ((spelled (f.payload b) : ℚ) / f.scale) := by
  rw [amount_eq h hf, bcdToInteger_decimal hne hd]
  rfl

/-- A field of no bytes is `NaN`. -/
theorem amount_nil {r : Reading} {parser : Parser} {f : BcdSpec} (h : ReadBy parser b r)
    (hf : parser.bcd = some f)
    (hnil : f.payload b = []) : r.amount = none := by
  rw [amount_eq h hf, hnil]
  rfl

theorem amount_isSome {r : Reading} {parser : Parser} {f : BcdSpec} (h : ReadBy parser b r)
    (hf : parser.bcd = some f)
    (hne : f.payload b ≠ []) : r.amount.isSome := by
  rw [amount_eq h hf, bcdToInteger_some fun hnil => hne (List.map_eq_nil_iff.mp hnil)]
  rfl

/-- Nothing is refused, so a field is right just when its digits are decimal. -/
theorem exactOrRefused_iff {r : Reading} {parser : Parser} {f : BcdSpec} (h : ReadBy parser b r)
    (hf : parser.bcd = some f) :
    f.ExactOrRefused b r ↔ IsDecimal (f.payload b) := by
  by_cases hnil : f.payload b = []
  · have hnone := amount_nil h hf hnil
    have hd : IsDecimal (f.payload b) := by
      rw [hnil]
      decide
    refine ⟨fun _ => hd, fun _ => ⟨fun hlen => ?_, fun _ => hd, fun v hv => ?_⟩⟩
    · rw [hnil, BcdSpec.width] at hlen
      have hlt := f.start_lt
      change 0 = f.stop - f.start at hlen
      omega
    · rw [hnone] at hv
      cases hv
  · refine ⟨fun hx => hx.refused (amount_isSome h hf hnil), fun hd => ?_⟩
    have hv := amount_decimal h hf hnil hd
    refine ⟨fun _ _ => hv, fun _ => hd, fun v hm => ?_⟩
    rw [hv] at hm
    obtain rfl : _ = v := Option.some.inj hm
    have hlt : spelled (f.payload b) < 10 ^ (2 * f.width) := by
      rw [pow_mul]
      exact Nat.lt_of_lt_of_le (spelled_lt hd)
        (Nat.pow_le_pow_right (by decide) (payload_length f b))
    have hscale : (0 : ℚ) < f.scale := Nat.cast_pos.mpr f.scale_pos
    exact (div_lt_div_iff_of_pos_right hscale).mpr (by exact_mod_cast hlt)

/-- Payloads of decimal digits that are reported alike are the same. -/
theorem payload_eq_of_amount {b' : List Byte} {r r' : Reading} {parser : Parser} {f : BcdSpec}
    (hf : parser.bcd = some f) (h : ReadBy parser b r) (h' : ReadBy parser b' r')
    (hlen : (f.payload b).length = f.width) (hlen' : (f.payload b').length = f.width)
    (hd : IsDecimal (f.payload b)) (hd' : IsDecimal (f.payload b')) (ha : r.amount = r'.amount) :
    f.payload b = f.payload b' := by
  have hwidth : 0 < f.width := Nat.sub_pos_of_lt f.start_lt
  have hne : f.payload b ≠ [] := List.ne_nil_of_length_pos (hlen ▸ hwidth)
  have hne' : f.payload b' ≠ [] := List.ne_nil_of_length_pos (hlen' ▸ hwidth)
  rw [amount_decimal h hf hne hd, amount_decimal h' hf hne' hd'] at ha
  have hscale : (f.scale : ℚ) ≠ 0 := Nat.cast_ne_zero.mpr (Nat.pos_iff_ne_zero.mp f.scale_pos)
  have hs : (spelled (f.payload b) : ℚ) = spelled (f.payload b') :=
    (div_left_inj' hscale).mp (Option.some.inj ha)
  exact spelled_inj hd hd' (hlen.trans hlen'.symm) (by exact_mod_cast hs)

end Fields

/-- A BCD field is exact or refused just when its digits are decimal, and of such fields none
are reported alike that differ. -/
theorem bcd_exact_iff {parser : Parser} {f : BcdSpec} (hf : parser.bcd = some f) :
    (∀ b r, ReadBy parser b r → (f.ExactOrRefused b r ↔ IsDecimal (f.payload b))) ∧
    ∀ b b' r r', ReadBy parser b r → ReadBy parser b' r' →
      (f.payload b).length = f.width → (f.payload b').length = f.width →
      IsDecimal (f.payload b) → IsDecimal (f.payload b') →
      r.amount = r'.amount → f.payload b = f.payload b' :=
  ⟨fun _ _ h => exactOrRefused_iff h hf,
    fun _ _ _ _ h h' hlen hlen' hd hd' => payload_eq_of_amount hf h h' hlen hlen' hd hd'⟩

def voltageSpec : BcdSpec where
  start := 13
  stop := 16
  scale := 100

theorem voltageFrame_exact :
    voltageSpec.ExactOrRefused voltageFrame (.voltage (some (3412 / 100)) .A) :=
  ((bcd_exact_iff (rfl : (Parser.readVoltage .A).bcd = some voltageSpec)).1 _ _
    ⟨by decide +kernel, by decide⟩).mpr (by decide)

/-- A voltage register that is filled with `0xFF`. -/
def emptyVoltage : List Byte :=
  sealFrame (frameBody [0x23, 0x36, 0x33, 0x03, 0x70, 0x04] 0x81 6
    [0x44, 0xE9, 0x33, 0x32, 0x32, 0x32])

/-- Its nibbles of fifteen are printed as two digits each. -/
theorem emptyVoltage_reported :
    ¬ ∀ parser f b r, Parser.bcd parser = some f → ReadBy parser b r → f.ExactOrRefused b r := by
  intro h
  have hread : ReadBy (.readVoltage .A) emptyVoltage (.voltage (some (151515151515 / 100)) .A) :=
    ⟨by decide +kernel, by decide⟩
  exact absurd ((h _ voltageSpec _ _ rfl hread).refused rfl) (by decide)

end Calin

end DeviceMessaging
