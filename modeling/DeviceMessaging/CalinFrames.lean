import DeviceMessaging.CalinDecode

namespace DeviceMessaging

open ByteSlices

namespace Calin

variable {b : List Byte}

/-- A frame up to its data. -/
def frameBody (address : List Byte) (control size : Byte) (data : List Byte) : List Byte :=
  HEADER_BYTE :: address ++ HEADER_BYTE :: control :: size :: data

/-- Its checksum and the end byte behind it. -/
def sealFrame (body : List Byte) : List Byte :=
  body ++ [UInt8.ofNat (checksum body), END_BYTE]

/-- The documented layout: headers, six address bytes, the control code of a response, the
size, as many data bytes, the checksum of all of it and the end byte. -/
def WellFormed (b : List Byte) : Prop :=
  ∃ (address : List Byte) (control size : Byte) (data : List Byte), address.length = 6 ∧
    (CONTROL_CODE_MAP (some control)).isSome ∧ data.length = size.toNat ∧
    b = sealFrame (frameBody address control size data)

def sizeByte (b : List Byte) : Nat :=
  (b[9]?.map UInt8.toNat).getD 0

def ControlCode.IsReading (operation : ControlCode) : Prop :=
  operation = .READING_SUCCESS ∨ operation = .READING_FAILURE

/-- What is checked of a frame. -/
structure Passes (b : List Byte) (operation : ControlCode) : Prop where
  headers : headersMatch b
  control : CONTROL_CODE_MAP b[8]? = some operation
  sum : checksumMatches b
  reading : operation.IsReading →
    (DATA_PROCESSOR_MAP (dataIdentifier b)).isSome ∧ holdsDeclared b

theorem control_response {byte : Option Byte} {operation : ControlCode}
    (h : CONTROL_CODE_MAP byte = some operation) :
    operation.IsReading ∨ operation = .WRITING_SUCCESS ∨ operation = .WRITING_FAILURE ∨
      operation = .SEND_TOKEN_SUCCESS ∨ operation = .SEND_TOKEN_FAILURE := by
  unfold CONTROL_CODE_MAP at h
  unfold ControlCode.IsReading
  split at h <;> cases h <;> simp

theorem decodeOperation_reading {operation : ControlCode} (ho : operation.IsReading) :
    decodeOperation operation b = match DATA_PROCESSOR_MAP (dataIdentifier b) with
      | none => none
      | some parser => if holdsDeclared b then some (readingEvent operation parser b) else none := by
  rcases ho with rfl | rfl <;> rfl

theorem decodeOperation_isSome {operation : ControlCode}
    (hc : CONTROL_CODE_MAP b[8]? = some operation) :
    (decodeOperation operation b).isSome ↔ (operation.IsReading →
      (DATA_PROCESSOR_MAP (dataIdentifier b)).isSome ∧ holdsDeclared b) := by
  rcases control_response hc with ho | rfl | rfl | rfl | rfl
  · rw [decodeOperation_reading ho]
    cases hp : DATA_PROCESSOR_MAP (dataIdentifier b) with
    | none => exact ⟨fun h => (nomatch h), fun h => (nomatch (h ho).1)⟩
    | some parser =>
      by_cases hd : holdsDeclared b
      · simp [hd]
      · simp [hd, ho]
  all_goals
    refine ⟨fun _ h => ?_, fun _ => rfl⟩
    rcases h with h | h <;> cases h

/-- A frame of no DLMS kind is accepted just when it passes the checks. -/
theorem decodeResponseData_isSome (h0 : b[0]? ≠ some 0) :
    (decodeResponseData b).isSome ↔ ∃ operation, Passes b operation := by
  unfold decodeResponseData
  rw [if_neg h0]
  constructor
  · intro h
    split at h
    next hh =>
      split at h
      next => cases h
      next operation hc =>
        split at h
        next hs => exact ⟨operation, hh, hc, hs, (decodeOperation_isSome hc).mp h⟩
        next => cases h
    next => cases h
  · rintro ⟨operation, hh, hc, hs, hr⟩
    rw [if_pos hh, hc]
    simp only [if_pos hs]
    exact (decodeOperation_isSome hc).mpr hr

theorem decodeResponseData_of_passes (h0 : b[0]? ≠ some 0) {operation : ControlCode}
    (hp : Passes b operation) : decodeResponseData b = decodeOperation operation b := by
  unfold decodeResponseData
  rw [if_neg h0, if_pos hp.headers, hp.control]
  exact if_pos hp.sum

theorem sealFrame_length (body : List Byte) : (sealFrame body).length = body.length + 2 := by
  unfold sealFrame
  rw [List.length_append]
  rfl

theorem frameBody_length {address : List Byte} (ha : address.length = 6) (control size : Byte)
    (data : List Byte) : (frameBody address control size data).length = 10 + data.length := by
  unfold frameBody
  simp only [List.cons_append, List.length_cons, List.length_append, ha]
  omega

theorem WellFormed.length_eq (h : WellFormed b) : b.length = 12 + sizeByte b := by
  obtain ⟨address, control, size, data, ha, -, hd, rfl⟩ := h
  have hsize : (sealFrame (frameBody address control size data))[9]? = some size := by
    unfold sealFrame frameBody
    rw [List.cons_append, List.cons_append, List.append_assoc, List.getElem?_cons_succ,
      List.getElem?_append_right (by omega), ha]
    rfl
  unfold sizeByte
  rw [sealFrame_length, frameBody_length ha, hsize, hd]
  change 10 + size.toNat + 2 = 12 + size.toNat
  omega

/-- A frame of at least ten bytes is its headers, address, control and size bytes, and the
rest. -/
theorem split_frame (h : 10 ≤ b.length) :
    b = b[0] :: slice b 1 7 ++ b[7] :: b[8] :: b[9] :: b.drop 10 := by
  have hslice := slice_append_drop b (by decide : 1 ≤ 7)
  have h0 := List.drop_eq_getElem_cons (by omega : 0 < b.length)
  rw [List.drop_eq_getElem_cons (by omega : 7 < b.length),
    List.drop_eq_getElem_cons (by omega : 8 < b.length),
    List.drop_eq_getElem_cons (by omega : 9 < b.length)] at hslice
  rw [List.drop_zero, ← hslice] at h0
  exact h0

/-- The last two bytes of a frame. -/
theorem split_end {n : Nat} (h : b.length = n + 2) :
    b = b.take n ++ [b[n], b[n + 1]] := by
  have hdrop : b.drop n = [b[n], b[n + 1]] := by
    rw [List.drop_eq_getElem_cons (by omega : n < b.length),
      List.drop_eq_getElem_cons (by omega : n + 1 < b.length), List.drop_of_length_le (by omega)]
  rw [← hdrop, List.take_append_drop]

theorem getElem_of_getElem? {i : Nat} {x : Byte} (hi : i < b.length) (h : b[i]? = some x) :
    b[i] = x := by
  rw [List.getElem?_eq_getElem hi] at h
  exact Option.some.inj h

theorem frameBody_append (address : List Byte) (control size : Byte) (data rest : List Byte) :
    frameBody address control size data ++ rest =
      HEADER_BYTE :: address ++ HEADER_BYTE :: control :: size :: (data ++ rest) := by
  simp only [frameBody, List.cons_append, List.append_assoc]

/-- A frame that passes and is as long as its size byte says has the documented layout. -/
theorem Passes.wellFormed {operation : ControlCode} (hp : Passes b operation)
    (hlen : b.length = 12 + sizeByte b) : WellFormed b := by
  obtain ⟨h0, h7, hend⟩ := hp.headers
  have hcontrol := hp.control
  have hsum := hp.sum
  have hsize : sizeByte b = b[9].toNat := by
    unfold sizeByte
    rw [List.getElem?_eq_getElem (by omega : 9 < b.length)]
    rfl
  have hlength : b.length = 10 + b[9].toNat + 2 := by omega
  have haddress : (slice b 1 7).length = 6 := by
    rw [length_slice]
    omega
  have hcount : (slice b 10 (10 + b[9].toNat)).length = b[9].toNat := by
    rw [length_slice]
    omega
  have hsplit := split_frame (by omega : 10 ≤ b.length)
  rw [getElem_of_getElem? _ h0, getElem_of_getElem? _ h7,
    ← slice_append_drop b (by omega : 10 ≤ 10 + b[9].toNat), ← frameBody_append] at hsplit
  have hbody : b.take (10 + b[9].toNat) =
      frameBody (slice b 1 7) b[8] b[9] (slice b 10 (10 + b[9].toNat)) := by
    refine (congrArg (List.take (10 + b[9].toNat)) hsplit).trans (List.take_left' ?_)
    rw [frameBody_length haddress, hcount]
  have htail := split_end hlength
  have hlast : b[10 + b[9].toNat + 1] = END_BYTE := by
    refine getElem_of_getElem? _ ?_
    rw [hlength] at hend
    exact hend
  have hcheck : b[10 + b[9].toNat] = UInt8.ofNat (checksum (b.take (10 + b[9].toNat))) := by
    unfold checksumMatches at hsum
    rw [hlength, Nat.add_sub_cancel, List.getElem?_eq_getElem (by omega)] at hsum
    have hsum : b[10 + b[9].toNat].toNat = checksum (b.take (10 + b[9].toNat)) :=
      Option.some.inj hsum
    rw [← hsum, UInt8.ofNat_toNat]
  rw [List.getElem?_eq_getElem (by omega)] at hcontrol
  refine ⟨_, b[8], b[9], _, haddress, by rw [hcontrol]; rfl, hcount, ?_⟩
  rw [← hbody]
  unfold sealFrame
  rw [← hcheck, ← hlast]
  exact htail

/-- A frame of no DLMS kind is accepted only if well formed just when its size byte counts
its data bytes or one of the checks refuses it. -/
theorem accepted_wellFormed (h0 : b[0]? ≠ some 0) :
    ((decodeResponseData b).isSome → WellFormed b) ↔
      ((∃ operation, Passes b operation) → b.length = 12 + sizeByte b) := by
  rw [decodeResponseData_isSome h0]
  constructor
  · exact fun h hp => (h hp).length_eq
  · rintro h ⟨operation, hp⟩
    exact hp.wellFormed (h ⟨operation, hp⟩)

def tokenFailure : List Byte :=
  [0x68, 0x23, 0x36, 0x33, 0x03, 0x70, 0x04, 0x68, 0xC0, 0x01, 0x34, 0xC8, 0x16]

theorem tokenFailure_wellFormed :
    (decodeResponseData tokenFailure).isSome ∧ WellFormed tokenFailure := by
  have accepted : (decodeResponseData tokenFailure).isSome := by decide
  exact ⟨accepted, (accepted_wellFormed (by decide)).mpr (fun _ => by decide) accepted⟩

/-- Ten bytes whose control code is their checksum and whose size byte is their end byte. -/
def overlapped : List Byte :=
  [0x68, 0x00, 0x00, 0x00, 0x00, 0x00, 0xB0, 0x68, 0x80, 0x16]

/-- They are taken for the delivery of a token. -/
theorem overlapped_accepted :
    ¬ ∀ b : List Byte, b[0]? ≠ some 0 → (decodeResponseData b).isSome → WellFormed b := by
  intro h
  have hwell := h overlapped (by decide) (by decide)
  exact absurd hwell.length_eq (by decide)

end Calin

end DeviceMessaging
