import DeviceMessaging.CalinFrames

namespace DeviceMessaging

open ByteSlices DecimalText

namespace Calin

variable {b : List Byte}

section Bcd

def bcdText (bcdArray : List Nat) : List Char :=
  bcdArray.reverse.flatMap fun byte =>
    Nat.toDigits 10 (byte / 16 % 16) ++ Nat.toDigits 10 (byte % 16)

theorem bcdText_snoc (bs : List Nat) (v : Nat) :
    bcdText (bs ++ [v]) =
      Nat.toDigits 10 (v / 16 % 16) ++ Nat.toDigits 10 (v % 16) ++ bcdText bs := by
  unfold bcdText
  rw [List.reverse_append, List.reverse_singleton, List.singleton_append, List.flatMap_cons]

theorem allDigits_bcdText (bs : List Nat) : AllDigits (bcdText bs) := by
  intro c hc
  obtain ⟨byte, -, hc⟩ := List.mem_flatMap.mp hc
  rcases List.mem_append.mp hc with h | h
  · exact allDigits_toDigits _ c h
  · exact allDigits_toDigits _ c h

theorem scanWhole_digits {ds : List Char} (hd : AllDigits ds) (hne : ds ≠ []) :
    scanWhole ds = some (DecimalText.value ds) := by
  have htake := (takeWhile_digits hd ended_nil.noDigit).1
  rw [List.append_nil] at htake
  unfold scanWhole
  rw [htake]
  cases ds with
  | nil => exact absurd rfl hne
  | cons c ds => rfl

theorem bcdText_ne_nil {bs : List Nat} (h : bs ≠ []) : bcdText bs ≠ [] := by
  obtain ⟨init, last, rfl⟩ := (List.eq_nil_or_concat' bs).resolve_left h
  rw [bcdText_snoc]
  simp [Nat.toDigits_ne_nil]

/-- Some bytes spell a number, whatever their nibbles. -/
theorem bcdToInteger_some {bs : List Nat} (h : bs ≠ []) :
    bcdToInteger bs = some (DecimalText.value (bcdText bs)) :=
  scanWhole_digits (allDigits_bcdText bs) (bcdText_ne_nil h)

/-- The last byte holds the leading digits. -/
theorem bcdToInteger_last (bs : List Nat) : bcdToInteger (bs ++ [0]) ≠ bcdToInteger (bs ++ [1]) := by
  have hne : ∀ v, bs ++ [v] ≠ [] := fun v => List.append_ne_nil_of_right_ne_nil _ (List.cons_ne_nil _ _)
  have h0 : bcdText (bs ++ [0]) = ['0', '0'] ++ bcdText bs := bcdText_snoc bs 0
  have h1 : bcdText (bs ++ [1]) = ['0', '1'] ++ bcdText bs := bcdText_snoc bs 1
  have hv0 : DecimalText.value ['0', '0'] = 0 := by decide
  have hv1 : DecimalText.value ['0', '1'] = 1 := by decide
  have hpos : 0 < 10 ^ (bcdText bs).length := Nat.pow_pos (by decide)
  rw [bcdToInteger_some (hne 0), bcdToInteger_some (hne 1), h0, h1, value_append, value_append, hv0,
    hv1]
  intro h
  have h := Option.some.inj h
  omega

end Bcd

section Positions

/-- The position behind the last one a parser reads. -/
def Parser.stop (parser : Parser) : Nat :=
  match parser with
  | .readVoltage _ => 16
  | .readPower _ => 16
  | .readCurrent _ => 14
  | .readCredit => 18
  | .readReport => 45
  | .readDate => 16
  | .readTime => 15

/-- A parser reads no position but those from twelve up to its stop. -/
theorem Parser.decode_congr (parser : Parser) {b b' : List Byte}
    (h : ∀ k, 12 ≤ k → k < parser.stop → b[k]? = b'[k]?) : parser.decode b = parser.decode b' := by
  have hslice : ∀ i j, 12 ≤ i → j ≤ parser.stop → slice b i j = slice b' i j :=
    fun i j hi hj => slice_congr fun k hk hkj => h k (by omega) (by omega)
  cases parser with
  | readVoltage phase =>
    simp only [decode, decodeReadVoltage, bcdField, hslice 13 16 (by decide) (Nat.le_refl 16)]
  | readPower phase =>
    simp only [decode, decodeReadPower, bcdField, hslice 12 16 (by decide) (Nat.le_refl 16)]
  | readCurrent phase =>
    simp only [decode, decodeReadCurrent, bcdField, hslice 12 14 (by decide) (Nat.le_refl 14)]
  | readCredit =>
    simp only [decode, decodeReadCredit, bcdField, hslice 12 16 (by decide) (by decide),
      h 16 (by decide) (by decide), h 17 (by decide) (by decide)]
  | readReport =>
    simp only [decode, decodeReadReport, hslice 18 22 (by decide) (by decide),
      hslice 22 26 (by decide) (by decide), hslice 26 30 (by decide) (by decide),
      hslice 30 34 (by decide) (by decide), hslice 34 38 (by decide) (by decide),
      hslice 38 40 (by decide) (by decide), hslice 40 44 (by decide) (by decide),
      h 13 (by decide) (by decide), h 14 (by decide) (by decide), h 15 (by decide) (by decide),
      h 16 (by decide) (by decide), h 17 (by decide) (by decide), h 44 (by decide) (by decide)]
  | readDate =>
    simp only [decode, decodeReadDate, h 13 (by decide) (by decide), h 14 (by decide) (by decide),
      h 15 (by decide) (by decide)]
  | readTime =>
    simp only [decode, decodeReadTime, h 12 (by decide) (by decide), h 13 (by decide) (by decide),
      h 14 (by decide) (by decide)]

/-- No field is `NaN` or null for want of a byte; the text of a missing byte is `aN`. -/
def Reading.Whole (r : Reading) : Prop :=
  match r with
  | .voltage v _ => v.isSome
  | .power p _ => p.isSome
  | .current c _ => c.isSome
  | .credit kwhCreditAvailable creditLevel _ => kwhCreditAvailable.isSome ∧ creditLevel.isSome
  | .report r => 'N' ∉ r.freezeTime.toList ∧ r.purchaseRemainSource1.isSome ∧
    r.purchaseRemainSource2.isSome
  | .date day month year => 'N' ∉ day.toList ∧ 'N' ∉ month.toList ∧ 'N' ∉ year.toList
  | .time hour minute second => 'N' ∉ hour.toList ∧ 'N' ∉ minute.toList ∧ 'N' ∉ second.toList

theorem bcdField_isSome {i j : Nat} (scale : ℚ) (hij : i < j) (hb : j ≤ b.length) :
    (bcdField b i j scale).isSome := by
  have hlen : ((slice b i j).map subtract33H).length = j - i := by
    rw [List.length_map, length_slice]
    omega
  have hne : (slice b i j).map subtract33H ≠ [] := by
    intro h
    rw [h, List.length_nil] at hlen
    omega
  unfold bcdField
  rw [bcdToInteger_some hne]
  rfl

theorem processFloat_isSome {i : Nat} (hb : i + 4 ≤ b.length) :
    (processFloatFromBytes (slice b i (i + 4))).isSome := by
  have hlen : (slice b i (i + 4)).length = 4 := by
    rw [length_slice]
    omega
  unfold processFloatFromBytes
  rw [if_neg (not_not.mpr hlen)]
  rfl

theorem bcdToString_whole {n : Nat} (hn : n < 256) : 'N' ∉ (bcdToString (some n)).toList := by
  unfold bcdToString
  rw [String.toList_ofList]
  revert n
  decide +kernel

theorem parseDateTimeByte_whole {k : Nat} (hk : k < b.length) :
    'N' ∉ (parseDateTimeByte b[k]?).toList := by
  rw [List.getElem?_eq_getElem hk]
  exact bcdToString_whole (Nat.mod_lt _ (by decide))

theorem Parser.decode_whole (parser : Parser) (h : parser.stop ≤ b.length) :
    (parser.decode b).Whole := by
  cases parser with
  | readVoltage phase => exact bcdField_isSome 100 (by decide) h
  | readPower phase => exact bcdField_isSome 10 (by decide) h
  | readCurrent phase => exact bcdField_isSome 100 (by decide) h
  | readCredit =>
    have h : 18 ≤ b.length := h
    refine ⟨bcdField_isSome 100 (by decide) (by omega), ?_⟩
    rw [List.getElem?_eq_getElem (by omega)]
    rfl
  | readReport =>
    have h : 45 ≤ b.length := h
    refine ⟨?_, processFloat_isSome (by omega), processFloat_isSome (by omega)⟩
    have hbyte : ∀ k, k < 45 → 'N' ∉ (parseDateTimeByte b[k]?).toList :=
      fun k hk => parseDateTimeByte_whole (by omega)
    simp only [String.toList_append, List.mem_append, not_or]
    exact ⟨⟨⟨⟨⟨⟨⟨⟨⟨by decide, hbyte 17 (by decide)⟩, by decide⟩, hbyte 16 (by decide)⟩, by decide⟩,
      hbyte 15 (by decide)⟩, by decide⟩, hbyte 14 (by decide)⟩, by decide⟩, hbyte 13 (by decide)⟩
  | readDate =>
    have h : 16 ≤ b.length := h
    refine ⟨parseDateTimeByte_whole (by omega), parseDateTimeByte_whole (by omega), ?_⟩
    rw [String.toList_append, List.mem_append, not_or]
    exact ⟨by decide, parseDateTimeByte_whole (by omega)⟩
  | readTime =>
    have h : 15 ≤ b.length := h
    exact ⟨parseDateTimeByte_whole (by omega), parseDateTimeByte_whole (by omega),
      parseDateTimeByte_whole (by omega)⟩

end Positions

section Payloads

/-- The reading that a frame of no DLMS kind is decoded to. -/
def readingOf (b : List Byte) : Option Reading :=
  match decodeResponseData b with
  | some { data := .reading r, .. } => some r
  | _ => none

def payload (b : List Byte) : List Byte :=
  slice b 12 (10 + sizeByte b)

structure SamePayload (b b' : List Byte) : Prop where
  control : b[8]? = b'[8]?
  identifier : dataIdentifier b = dataIdentifier b'
  size : b[9]? = b'[9]?
  payload : payload b = payload b'

/-- Nothing but the declared payload contributes to the reading, and it is all there. -/
def OnlyPayload (b : List Byte) (r : Reading) : Prop :=
  r.Whole ∧ ∀ b' r', readingOf b' = some r' → SamePayload b b' → r' = r

theorem readingOf_dlms (h0 : b[0]? = some 0) : readingOf b = none := by
  unfold readingOf decodeResponseData
  rw [if_pos h0]
  rfl

theorem readingEvent_data (operation : ControlCode) (parser : Parser) (b : List Byte) :
    (readingEvent operation parser b).data = .reading (parser.decode b) := by
  unfold readingEvent
  dsimp only
  split_ifs <;> rfl

theorem readingOf_of_passes (h0 : b[0]? ≠ some 0) {operation : ControlCode}
    (hp : Passes b operation) (ho : operation.IsReading) {parser : Parser}
    (hparser : DATA_PROCESSOR_MAP (dataIdentifier b) = some parser) :
    readingOf b = some (parser.decode b) := by
  have hdata := readingEvent_data operation parser b
  unfold readingOf
  rw [decodeResponseData_of_passes h0 hp, decodeOperation_reading ho, hparser]
  simp only [if_pos (hp.reading ho).2]
  generalize readingEvent operation parser b = event at hdata ⊢
  obtain ⟨status, data, failureContext, unsolicited⟩ := event
  have hdata : data = .reading (parser.decode b) := hdata
  subst hdata
  rfl

/-- A frame decoded to a reading passed the checks of a reading. -/
theorem passes_of_readingOf {r : Reading} (h : readingOf b = some r) :
    b[0]? ≠ some 0 ∧ ∃ operation parser, Passes b operation ∧ operation.IsReading ∧
      DATA_PROCESSOR_MAP (dataIdentifier b) = some parser ∧ r = parser.decode b := by
  have h0 : b[0]? ≠ some 0 := by
    intro h0
    rw [readingOf_dlms h0] at h
    cases h
  have hsome : (decodeResponseData b).isSome := by
    unfold readingOf at h
    cases hd : decodeResponseData b with
    | none =>
      rw [hd] at h
      cases h
    | some event => rfl
  obtain ⟨operation, hp⟩ := (decodeResponseData_isSome h0).mp hsome
  refine ⟨h0, operation, ?_⟩
  rcases control_response hp.control with ho | ho
  · obtain ⟨parser, hparser⟩ := Option.isSome_iff_exists.mp (hp.reading ho).1
    rw [readingOf_of_passes h0 hp ho hparser] at h
    exact ⟨parser, hp, ho, hparser, (Option.some.inj h).symm⟩
  · unfold readingOf at h
    rw [decodeResponseData_of_passes h0 hp] at h
    rcases ho with rfl | rfl | rfl | rfl <;> cases h

theorem sizeByte_congr {b b' : List Byte} (h : b[9]? = b'[9]?) : sizeByte b = sizeByte b' := by
  unfold sizeByte
  rw [h]

/-- Where the payload reaches the parser's stop, it decides the reading. -/
theorem onlyPayload_of_stop {r : Reading} {parser : Parser} (h : readingOf b = some r)
    (hparser : DATA_PROCESSOR_MAP (dataIdentifier b) = some parser)
    (hstop : parser.stop ≤ 10 + sizeByte b) : OnlyPayload b r := by
  obtain ⟨-, operation, parser', hp, ho, hparser', rfl⟩ := passes_of_readingOf h
  obtain rfl : parser' = parser := Option.some.inj (hparser'.symm.trans hparser)
  have hlen : 12 + sizeByte b ≤ b.length := (hp.reading ho).2
  refine ⟨parser'.decode_whole (by omega), fun b' r' h' hs => ?_⟩
  obtain ⟨-, operation', parser'', hp', ho', hparser'', rfl⟩ := passes_of_readingOf h'
  obtain rfl : parser'' = parser' := by
    rw [← hs.identifier, hparser] at hparser''
    exact (Option.some.inj hparser'').symm
  refine (parser''.decode_congr fun k hk hkstop => ?_).symm
  have hpayload := hs.payload
  unfold payload at hpayload
  rw [← sizeByte_congr hs.size] at hpayload
  exact getElem?_of_slice hpayload hk (by omega)

end Payloads

section Extensions

/-- The frame up to its declared data, filled up to a position, with another byte there. -/
def extend (b : List Byte) (n p : Nat) (x : Byte) : List Byte :=
  b.take n ++ List.replicate (p - n) 0x33 ++ [x]

variable {n p : Nat} {x : Byte}

theorem extend_length (hn : n ≤ p) (hb : n ≤ b.length) : (extend b n p x).length = p + 1 := by
  simp only [extend, List.length_append, List.length_take, List.length_replicate, List.length_singleton]
  omega

theorem sealFrame_getElem? (body : List Byte) {k : Nat} (hk : k < body.length) :
    (sealFrame body)[k]? = body[k]? := by
  unfold sealFrame
  exact List.getElem?_append_left hk

theorem extend_getElem? (hb : n ≤ b.length) {k : Nat} (hk : k < n) :
    (extend b n p x)[k]? = b[k]? := by
  unfold extend
  rw [List.append_assoc, List.getElem?_append_left (by rw [List.length_take]; omega),
    List.getElem?_take, if_pos hk]

/-- A sealed frame that begins as one that passes, and is long enough, passes. -/
theorem Passes.sealed {body : List Byte} {operation : ControlCode} (hp : Passes b operation)
    (hbody : 12 ≤ body.length) (hsize : 12 + sizeByte b ≤ body.length + 2)
    (h : ∀ k, k < 12 → body[k]? = b[k]?) : Passes (sealFrame body) operation := by
  have hget : ∀ k, k < 12 → (sealFrame body)[k]? = b[k]? :=
    fun k hk => (sealFrame_getElem? body (by omega)).trans (h k hk)
  have hlen := sealFrame_length body
  refine ⟨⟨?_, ?_, ?_⟩, ?_, ?_, fun ho => ⟨?_, ?_⟩⟩
  · rw [hget 0 (by decide)]
    exact hp.headers.1
  · rw [hget 7 (by decide)]
    exact hp.headers.2.1
  · rw [hlen]
    unfold sealFrame
    rw [List.getElem?_append_right (by omega)]
    have hk : body.length + 2 - 1 - body.length = 1 := by omega
    rw [hk]
    rfl
  · rw [hget 8 (by decide)]
    exact hp.control
  · have htake : slice (sealFrame body) 0 body.length = body := by
      unfold slice sealFrame
      rw [List.drop_zero, List.take_left]
    unfold checksumMatches
    rw [hlen, Nat.add_sub_cancel, htake]
    unfold sealFrame
    rw [List.getElem?_append_right (Nat.le_refl _), Nat.sub_self]
    have hmod : checksum body < 256 := Nat.mod_lt _ (by decide)
    exact congrArg some (UInt8.toNat_ofNat_of_lt' hmod)
  · have hid : dataIdentifier (sealFrame body) = dataIdentifier b := by
      unfold dataIdentifier
      rw [slice_congr fun k _ hk => hget k hk]
    rw [hid]
    exact (hp.reading ho).1
  · unfold holdsDeclared
    rw [hget 9 (by decide), hlen]
    exact hsize

theorem bcdField_last {xs ys zs : List Byte} {i j : Nat} {scale : ℚ} (hscale : scale ≠ 0)
    (hi : i ≤ xs.length) (hj : xs.length + 1 = j) :
    bcdField (xs ++ 0x33 :: ys) i j scale ≠ bcdField (xs ++ 0x34 :: zs) i j scale := by
  subst hj
  have hlast := bcdToInteger_last ((xs.drop i).map subtract33H)
  have h0 : subtract33H 0x33 = 0 := by decide
  have h1 : subtract33H 0x34 = 1 := by decide
  unfold bcdField
  rw [slice_snoc hi, slice_snoc hi, List.map_append, List.map_append, List.map_singleton,
    List.map_singleton, h0, h1]
  intro h
  refine hlast (Option.map_injective (fun m n hmn => ?_) h)
  exact Nat.cast_injective (mul_right_cancel₀ (inv_ne_zero hscale) hmn)

theorem getElem?_behind (xs : List Byte) (x : Byte) (ys : List Byte) {k : Nat}
    (hk : xs.length = k) : (xs ++ x :: ys)[k]? = some x := by
  rw [List.getElem?_append_right (by omega), hk, Nat.sub_self]
  rfl

/-- The last byte a parser reads counts. -/
theorem Parser.decode_last (parser : Parser) {xs : List Byte} (ys zs : List Byte)
    (hx : xs.length + 1 = parser.stop) :
    parser.decode (xs ++ 0x33 :: ys) ≠ parser.decode (xs ++ 0x34 :: zs) := by
  have hlast := fun {k : Nat} (hk : xs.length = k) => getElem?_behind xs 0x33 ys hk
  have hother := fun {k : Nat} (hk : xs.length = k) => getElem?_behind xs 0x34 zs hk
  intro h
  cases parser with
  | readVoltage phase =>
    have hx : xs.length + 1 = 16 := hx
    exact bcdField_last (by decide) (by omega) hx (Reading.voltage.inj h).1
  | readPower phase =>
    have hx : xs.length + 1 = 16 := hx
    exact bcdField_last (by decide) (by omega) hx (Reading.power.inj h).1
  | readCurrent phase =>
    have hx : xs.length + 1 = 14 := hx
    exact bcdField_last (by decide) (by omega) hx (Reading.current.inj h).1
  | readCredit =>
    have hx : xs.length = 17 := Nat.succ.inj hx
    have hon := (Reading.credit.inj h).2.2
    rw [hlast hx, hother hx] at hon
    revert hon
    decide
  | readReport =>
    have hx : xs.length = 44 := Nat.succ.inj hx
    have hopen := congrArg (fun r => r.meterStatus.relayOpen) (Reading.report.inj h)
    dsimp only at hopen
    rw [hlast hx, hother hx] at hopen
    revert hopen
    decide
  | readDate =>
    have hx : xs.length = 15 := Nat.succ.inj hx
    have hyear := (Reading.date.inj h).2.2
    rw [hlast hx, hother hx] at hyear
    revert hyear
    decide
  | readTime =>
    have hx : xs.length = 14 := Nat.succ.inj hx
    have hhour := (Reading.time.inj h).1
    rw [hlast hx, hother hx] at hhour
    revert hhour
    decide

theorem Parser.stop_ge (parser : Parser) : 14 ≤ parser.stop := by
  unfold stop
  split <;> decide

/-- Where the payload ends before the parser's stop, bytes behind it count. -/
theorem stop_of_onlyPayload {r : Reading} {parser : Parser} (h : readingOf b = some r)
    (hparser : DATA_PROCESSOR_MAP (dataIdentifier b) = some parser) (ho : OnlyPayload b r) :
    parser.stop ≤ 10 + sizeByte b := by
  by_contra hlt
  obtain ⟨-, operation, -, hp, hreading, -, -⟩ := passes_of_readingOf h
  have hdeclared : 12 + sizeByte b ≤ b.length := (hp.reading hreading).2
  have hge := parser.stop_ge
  obtain ⟨p, hstop⟩ := Nat.exists_eq_add_of_le' (by omega : 1 ≤ parser.stop)
  obtain ⟨n, hn, hnp⟩ : ∃ n, n = max 12 (10 + sizeByte b) ∧ n ≤ p := ⟨_, rfl, by omega⟩
  have hnb : n ≤ b.length := by omega
  -- the same frame as far as its payload goes, with any byte where the parser reads last
  have hread : ∀ x, parser.decode (sealFrame (extend b n p x)) = r := by
    intro x
    have hlen := extend_length (x := x) hnp hnb
    have hget : ∀ k, k < n → (sealFrame (extend b n p x))[k]? = b[k]? :=
      fun k hk => (sealFrame_getElem? _ (by omega)).trans (extend_getElem? hnb hk)
    have hpass : Passes (sealFrame (extend b n p x)) operation :=
      hp.sealed (by omega) (by omega) fun k hk => extend_getElem? hnb (by omega)
    have hid : dataIdentifier (sealFrame (extend b n p x)) = dataIdentifier b := by
      unfold dataIdentifier
      rw [slice_congr fun k _ hk => hget k (by omega)]
    have h0 : (sealFrame (extend b n p x))[0]? ≠ some 0 := by
      rw [hpass.headers.1]
      decide
    have hr := readingOf_of_passes h0 hpass hreading (hid ▸ hparser)
    have hsize : b[9]? = (sealFrame (extend b n p x))[9]? := (hget 9 (by omega)).symm
    refine ho.2 _ _ hr ⟨(hget 8 (by omega)).symm, hid.symm, hsize, ?_⟩
    unfold payload
    rw [← sizeByte_congr hsize]
    exact slice_congr fun k _ hk => (hget k (by omega)).symm
  have hxs : (b.take n ++ List.replicate (p - n) 0x33).length + 1 = parser.stop := by
    rw [List.length_append, List.length_take, List.length_replicate]
    omega
  have hframe : ∀ x, sealFrame (extend b n p x) = b.take n ++ List.replicate (p - n) 0x33 ++
      x :: [UInt8.ofNat (checksum (extend b n p x)), END_BYTE] := by
    intro x
    unfold sealFrame
    rw [extend, List.append_assoc, List.singleton_append]
  have hne := parser.decode_last [UInt8.ofNat (checksum (extend b n p 0x33)), END_BYTE]
    [UInt8.ofNat (checksum (extend b n p 0x34)), END_BYTE] hxs
  rw [← hframe, ← hframe, hread, hread] at hne
  exact hne rfl

end Extensions

/-- A reading comes from the declared payload alone just when the payload reaches the last
position that the parser of its identifier reads. -/
theorem reading_onlyPayload {r : Reading} (h : readingOf b = some r) :
    OnlyPayload b r ↔ ∃ parser, DATA_PROCESSOR_MAP (dataIdentifier b) = some parser ∧
      parser.stop ≤ 10 + sizeByte b := by
  constructor
  · intro ho
    obtain ⟨-, -, parser, -, -, hparser, -⟩ := passes_of_readingOf h
    exact ⟨parser, hparser, stop_of_onlyPayload h hparser ho⟩
  · rintro ⟨parser, hparser, hstop⟩
    exact onlyPayload_of_stop h hparser hstop

/-- A voltage of phase A: four payload bytes, of which the last three are read. -/
def voltageFrame : List Byte :=
  sealFrame (frameBody [0x23, 0x36, 0x33, 0x03, 0x70, 0x04] 0x81 6
    [0x44, 0xE9, 0x33, 0x45, 0x67, 0x33])

theorem voltageFrame_onlyPayload : OnlyPayload voltageFrame (.voltage (some (3412 / 100)) .A) :=
  (reading_onlyPayload (by decide +kernel)).mpr ⟨.readVoltage .A, by decide, by decide⟩

/-- A credit reading of four data bytes, two of them its identifier. -/
def shortCredit : List Byte :=
  sealFrame (frameBody [0x23, 0x36, 0x33, 0x03, 0x70, 0x04] 0x81 4 [0x54, 0x17, 0x33, 0x33])

/-- Its amount is read from the checksum and the end byte, and its level is `NaN`. -/
theorem shortCredit_reads_end :
    ¬ ∀ b r, readingOf b = some r → OnlyPayload b r := by
  intro h
  have hr : readingOf shortCredit = some (decodeReadCredit shortCredit) := by decide +kernel
  have hwhole : (decodeReadCredit shortCredit).Whole := (h _ _ hr).1
  exact absurd hwhole.2 (by decide)

end Calin

end DeviceMessaging
