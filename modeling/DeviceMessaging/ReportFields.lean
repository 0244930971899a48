import Mathlib.Data.List.Induction
import Mathlib.Data.Nat.Digits.Defs
import DeviceMessaging.CalinReadings

namespace DeviceMessaging

open ByteSlices

namespace Calin

variable {b : List Byte} {bytes : List Byte}

/-- The number that scrambled bytes stand for, the least significant first. -/
def unsignedValue (bytes : List Byte) : Nat :=
  Nat.ofDigits 256 (bytes.map subtract33H)

/-- No fourth byte whose top bit becomes the sign of the 32-bit shift. -/
def TopBitClear (bytes : List Byte) : Prop :=
  ∀ byte ∈ bytes[3]?, subtract33H byte < 128

instance (bytes : List Byte) : Decidable (TopBitClear bytes) :=
  inferInstanceAs (Decidable (∀ byte ∈ bytes[3]?, subtract33H byte < 128))

theorem subtract33H_lt (byte : Byte) : subtract33H byte < 256 :=
  Nat.mod_lt _ (by decide)

section Combined

theorem shiftLeft_value {x k : Nat} (hk : k < 32) (hx : x * 2 ^ k < 2 ^ 32) :
    shiftLeft x k = if x * 2 ^ k < 2 ^ 31 then (x * 2 ^ k : Int) else x * 2 ^ k - 2 ^ 32 := by
  have hx32 : x < 2 ^ 32 := Nat.lt_of_le_of_lt (Nat.le_mul_of_pos_right x (by positivity)) hx
  unfold shiftLeft
  rw [Nat.mod_eq_of_lt hk, BitVec.toInt_eq_toNat_cond, BitVec.toNat_shiftLeft, BitVec.toNat_ofNat,
    Nat.mod_eq_of_lt hx32, Nat.shiftLeft_eq, Nat.mod_eq_of_lt hx]
  split <;> split <;> push_cast <;> omega

theorem reverseAndCombine_snoc (bytes : List Byte) (byte : Byte) :
    reverseAndCombine (bytes ++ [byte]) =
      reverseAndCombine bytes + shiftLeft (subtract33H byte) (bytes.length * 8) := by
  unfold reverseAndCombine
  rw [List.zipIdx_append, List.foldl_append]
  simp

theorem unsignedValue_snoc (bytes : List Byte) (byte : Byte) :
    unsignedValue (bytes ++ [byte]) =
      unsignedValue bytes + 256 ^ bytes.length * subtract33H byte := by
  unfold unsignedValue
  rw [List.map_append, Nat.ofDigits_append, List.length_map, List.map_singleton,
    Nat.ofDigits_singleton]

theorem unsignedValue_lt (bytes : List Byte) : unsignedValue bytes < 256 ^ bytes.length := by
  have h := Nat.ofDigits_lt_base_pow_length (by decide : 1 < 256)
    (l := bytes.map subtract33H) fun x hx => by
      obtain ⟨byte, -, rfl⟩ := List.mem_map.mp hx
      exact subtract33H_lt byte
  rwa [List.length_map] at h

/-- Three bytes or fewer are combined without a sign. -/
theorem reverseAndCombine_short (h : bytes.length ≤ 3) :
    reverseAndCombine bytes = unsignedValue bytes := by
  induction bytes using List.reverseRecOn with
  | nil => rfl
  | append_singleton bytes byte ih =>
    rw [List.length_append, List.length_singleton] at h
    have hbyte := subtract33H_lt byte
    have hpow : (256 : Nat) ^ bytes.length = 2 ^ (bytes.length * 8) := by
      rw [Nat.mul_comm, pow_mul]
      rfl
    have hle : (2 : Nat) ^ (bytes.length * 8) ≤ 2 ^ 16 := Nat.pow_le_pow_right (by decide) (by omega)
    have hsmall : subtract33H byte * 2 ^ (bytes.length * 8) < 2 ^ 31 :=
      Nat.lt_of_le_of_lt (Nat.mul_le_mul_left _ hle) (by omega)
    rw [reverseAndCombine_snoc, unsignedValue_snoc, ih (by omega),
      shiftLeft_value (by omega) (by omega), if_pos hsmall, hpow]
    push_cast
    ring

/-- The fourth byte counts as signed. -/
theorem reverseAndCombine_four {byte : Byte} (h : bytes.length = 3) :
    reverseAndCombine (bytes ++ [byte]) =
      unsignedValue (bytes ++ [byte]) - if subtract33H byte < 128 then 0 else 2 ^ 32 := by
  have hbyte := subtract33H_lt byte
  rw [reverseAndCombine_snoc, unsignedValue_snoc, reverseAndCombine_short (by omega), h,
    shiftLeft_value (by decide) (by omega)]
  split <;> split <;> push_cast <;> omega

theorem split_four (h : bytes.length = 4) : ∃ init byte, init.length = 3 ∧ bytes = init ++ [byte] := by
  have hne : bytes ≠ [] := List.ne_nil_of_length_pos (by omega)
  refine ⟨bytes.dropLast, bytes.getLast hne, ?_, (List.dropLast_append_getLast hne).symm⟩
  rw [List.length_dropLast, h]

/-- Up to four bytes are combined to the number they stand for just when none of them is a
fourth one with its top bit set. -/
theorem reverseAndCombine_eq_iff (h : bytes.length ≤ 4) :
    reverseAndCombine bytes = unsignedValue bytes ↔ TopBitClear bytes := by
  unfold TopBitClear
  rcases Nat.lt_or_eq_of_le h with hlt | heq
  · rw [List.getElem?_eq_none (by omega)]
    exact ⟨fun _ _ hx => (nomatch hx), fun _ => reverseAndCombine_short (by omega)⟩
  · obtain ⟨init, byte, hinit, rfl⟩ := split_four heq
    rw [reverseAndCombine_four hinit, List.getElem?_append_right (by omega), hinit]
    constructor
    · rintro hv x hx
      obtain rfl : byte = x := Option.some.inj hx
      by_contra hx
      rw [if_neg hx] at hv
      omega
    · intro hx
      rw [if_pos (hx byte rfl)]
      omega

end Combined

section Reports

/-- Bytes are decoded as the unsigned number they stand for. -/
structure Unsigned (bytes : List Byte) : Prop where
  value : reverseAndCombine bytes = unsignedValue bytes
  nonneg : 0 ≤ reverseAndCombine bytes
  below : reverseAndCombine bytes < 256 ^ bytes.length

theorem unsigned_iff (h : bytes.length ≤ 4) : Unsigned bytes ↔ TopBitClear bytes := by
  rw [← reverseAndCombine_eq_iff h]
  refine ⟨fun hu => hu.value, fun hv => ⟨hv, ?_, ?_⟩⟩
  · rw [hv]
    exact Int.natCast_nonneg _
  · rw [hv]
    exact_mod_cast unsignedValue_lt bytes

/-- The four-byte fields of a report that are combined from their bytes. -/
def combinedFields : List (Nat × Nat) :=
  [(18, 22), (26, 30), (34, 38), (40, 44)]

/-- The fields of a report are the scaled values of their bytes. -/
structure ReportUnsigned (b : List Byte) (r : ReadReport) : Prop where
  consumptionSource1 : r.consumptionSource1 = (unsignedValue (slice b 18 22) : ℚ) / 100
  consumptionSource2 : r.consumptionSource2 = (unsignedValue (slice b 26 30) : ℚ) / 100
  intervalDemand : r.intervalDemand = unsignedValue (slice b 34 38)
  voltage : r.voltage = (unsignedValue (slice b 38 40) : ℚ) / 10
  current : r.current = (unsignedValue (slice b 40 44) : ℚ) / 1000

theorem slice_length_le (b : List Byte) (i j : Nat) : (slice b i j).length ≤ j - i := by
  rw [length_slice]
  omega

theorem scaled_eq_iff {b : List Byte} {i j : Nat} {scale : ℚ} (hscale : scale ≠ 0) (hj : j ≤ i + 4) :
    (reverseAndCombine (slice b i j) : ℚ) / scale = (unsignedValue (slice b i j) : ℚ) / scale ↔
      TopBitClear (slice b i j) := by
  have hlen := slice_length_le b i j
  rw [← reverseAndCombine_eq_iff (by omega), div_left_inj' hscale]
  exact_mod_cast Iff.rfl

theorem reportUnsigned_iff {r : ReadReport} (h : readingOf b = some (.report r)) :
    ReportUnsigned b r ↔ ∀ f ∈ combinedFields, TopBitClear (slice b f.1 f.2) := by
  obtain ⟨-, -, parser, -, -, -, hr⟩ := passes_of_readingOf h
  have hreport : Reading.report r = decodeReadReport b := by
    cases parser with
    | readReport => exact hr
    | _ => cases hr
  cases hreport
  have h1 := scaled_eq_iff (b := b) (i := 18) (j := 22) (by decide : (100 : ℚ) ≠ 0) (by decide)
  have h2 := scaled_eq_iff (b := b) (i := 26) (j := 30) (by decide : (100 : ℚ) ≠ 0) (by decide)
  have h3 := scaled_eq_iff (b := b) (i := 40) (j := 44) (by decide : (1000 : ℚ) ≠ 0) (by decide)
  have h4 : reverseAndCombine (slice b 34 38) = unsignedValue (slice b 34 38) ↔ _ :=
    reverseAndCombine_eq_iff (slice_length_le b 34 38)
  have h5 : reverseAndCombine (slice b 38 40) = unsignedValue (slice b 38 40) :=
    reverseAndCombine_short (Nat.le_trans (slice_length_le b 38 40) (by decide))
  simp only [combinedFields, List.forall_mem_cons, List.not_mem_nil, false_implies, forall_const]
  constructor
  · intro hu
    exact ⟨h1.mp hu.consumptionSource1, h2.mp hu.consumptionSource2, h4.mp hu.intervalDemand,
      h3.mp hu.current, trivial⟩
  · rintro ⟨hc1, hc2, hd, hc, -⟩
    refine ⟨h1.mpr hc1, h2.mpr hc2, h4.mpr hd, ?_, h3.mpr hc⟩
    rw [h5]
    rfl

end Reports

/-- Byte strings of up to four bytes, and the fields of a report, are decoded as unsigned
just when the descrambled top byte of a field of four is below 128. -/
theorem fields_unsigned_iff {bytes b : List Byte} {r : ReadReport} (hlen : bytes.length ≤ 4)
    (hr : readingOf b = some (.report r)) :
    (Unsigned bytes ↔ TopBitClear bytes) ∧
      (ReportUnsigned b r ↔ ∀ f ∈ combinedFields, TopBitClear (slice b f.1 f.2)) :=
  ⟨unsigned_iff hlen, reportUnsigned_iff hr⟩

/-- A report with one byte everywhere behind its identifier. -/
def filledReport (fill : Byte) : List Byte :=
  sealFrame (frameBody [0x23, 0x36, 0x33, 0x03, 0x70, 0x04] 0x81 35
    (0x44 :: 0xF4 :: List.replicate 33 fill))

def filledWithOnes : ReadReport where
  freezeTime := "2001-01-01 01:01"
  consumptionSource1 := 16843009 / 100
  purchaseRemainSource1 := some 0x01010101
  consumptionSource2 := 16843009 / 100
  purchaseRemainSource2 := some 0x01010101
  intervalDemand := 16843009
  voltage := 257 / 10
  current := 16843009 / 1000
  meterStatus := meterStatusOf (some 1)

theorem filledWithOnes_unsigned :
    Unsigned [0x32, 0x32, 0x32] ∧ ReportUnsigned (filledReport 0x34) filledWithOnes := by
  have hlen : [(0x32 : Byte), 0x32, 0x32].length ≤ 4 := by decide
  have hreport : readingOf (filledReport 0x34) = some (.report filledWithOnes) := by
    decide +kernel
  obtain ⟨hbytes, hfields⟩ := fields_unsigned_iff hlen hreport
  exact ⟨hbytes.mpr (by decide +kernel), hfields.mpr (by decide +kernel)⟩

/-- Registers of `0xFF` are reported as a demand of `-1`. -/
theorem filledReport_negative :
    ¬ ((∀ bytes : List Byte, bytes.length ≤ 4 → Unsigned bytes) ∧
      ∀ b r, readingOf b = some (.report r) → ReportUnsigned b r) := by
  rintro ⟨-, h⟩
  have hparser : readingOf (filledReport 0x32) = some (decodeReadReport (filledReport 0x32)) := by
    decide +kernel
  have hu := h (filledReport 0x32) _ hparser
  have hdemand := hu.intervalDemand
  revert hdemand
  decide +kernel

end Calin

end DeviceMessaging
