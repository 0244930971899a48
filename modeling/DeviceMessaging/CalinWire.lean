import DeviceMessaging.CalinEncode

namespace DeviceMessaging

open ByteSlices

namespace Calin

/-- The byte before it was scrambled. -/
def unscramble (byte : Nat) : Nat :=
  (byte + 256 - 0x33) % 256

/-- What a frame asks of which device. -/
structure WireCommand where
  address : List Nat
  controlCode : Nat
  dataIdentifier : List Nat
  password : List Nat
  written : List Nat
  deriving DecidableEq

/-- The bytes a command writes, those of the token for a token command. -/
def ToEncode.written (c : ToEncode) : Option (List Nat) :=
  if isTokenCommand c.requestType then tokenBytesOf c.token
  else (determineCommandConfig c).map CommandConfig.rawWriteData

def ToEncode.wireCommand (c : ToEncode) : Option WireCommand := do
  let address ← deviceEuiBytesOf c.deviceIdentifier
  let config ← determineCommandConfig c
  let written ← c.written
  return {
    address := address
    controlCode := config.controlCode
    dataIdentifier := config.dataIdentifier
    password := if config.requiresPassword then passwordBytes else []
    written := written }

def undoBytes (bytes : List Nat) : List Nat :=
  (bytes.map unscramble).reverse

/-- A frame read back: of a write the first four of the bytes written are the password. -/
def undoFrame (frame : List Nat) : WireCommand :=
  let controlCode := frame[8]?.getD 0
  let data := slice frame 10 (frame.length - 2)
  let prefixed := if controlCode = 0x04 then 4 else 0
  { address := (slice frame 1 7).reverse
    controlCode := controlCode
    dataIdentifier := undoBytes (data.take 2)
    password := undoBytes ((data.drop 2).take prefixed)
    written := undoBytes (data.drop (2 + prefixed)) }

/-- What a command is, up to the token command types, which all deliver a token, and the
phase of a command that has none. -/
def ToEncode.kind (c : ToEncode) : Option (CommandType × Option Phase) :=
  if isTokenCommand c.requestType then none
  else if c.requestType = .readVoltage ∨ c.requestType = .readPower ∨
      c.requestType = .readCurrent then some (c.requestType, some c.devicePhase)
  else some (c.requestType, none)

structure SameCommand (c c' : ToEncode) : Prop where
  address : deviceEuiBytesOf c.deviceIdentifier = deviceEuiBytesOf c'.deviceIdentifier
  kind : c.kind = c'.kind
  written : c.written = c'.written

/-- A request up to its data. -/
def requestBody (address : List Nat) (controlCode : Nat) (data : List Nat) : List Nat :=
  0x68 :: address.reverse ++ 0x68 :: controlCode :: data.length :: data

/-- A frame of bytes in the layout of requests, which says which command it is. -/
structure FaithfulFrame (c : ToEncode) (frame : List Nat) : Prop where
  bytes : ∀ x ∈ frame, x < 256
  layout : ∃ address controlCode data, deviceEuiBytesOf c.deviceIdentifier = some address ∧
    address.length = 6 ∧
    frame = requestBody address controlCode data ++
      [(requestBody address controlCode data).sum % 256, 0x16]
  undo : c.wireCommand = some (undoFrame frame)
  injective : ∀ c', encodeRequestData c' = some frame → SameCommand c c'

section Bytes

theorem unscramble_add33H {byte : Nat} (h : byte < 256) : unscramble (add33H byte) = byte := by
  unfold unscramble add33H
  omega

theorem add33H_lt (byte : Nat) : add33H byte < 256 :=
  Nat.mod_lt _ (by decide)

theorem undoBytes_scrambled {bytes : List Nat} (h : ∀ x ∈ bytes, x < 256) :
    undoBytes (bytes.map add33H).reverse = bytes := by
  unfold undoBytes
  rw [← List.map_reverse, List.reverse_reverse, List.map_map]
  exact (List.map_congr_left fun x hx => unscramble_add33H (h x hx)).trans (List.map_id' bytes)

theorem hexDigitValue_lt {c : Char} (hc : isHexDigit c = true) : hexDigitValue c < 16 := by
  unfold isHexDigit at hc
  simp only [Bool.or_eq_true, Bool.and_eq_true, decide_eq_true_eq] at hc
  unfold hexDigitValue
  have h0 : '0'.toNat = 48 := rfl
  by_cases hd : c.isDigit = true
  · have hlt := DecimalText.isDigit_lt hd
    rw [if_pos hd]
    omega
  · rw [if_neg hd]
    rcases hc with (hc | ⟨ha, hf⟩) | ⟨-, hF⟩
    · exact absurd hc hd
    · have hf : c.toNat ≤ 102 := hf
      rw [if_pos ha]
      omega
    · have hF : c.toNat ≤ 70 := hF
      have ha : ¬ 'a' ≤ c := fun ha => by
        have ha : 97 ≤ c.toNat := ha
        omega
      rw [if_neg ha]
      omega

theorem hexPairs_lt {hex : List Char} (h : ∀ c ∈ hex, isHexDigit c = true) :
    ∀ x ∈ hexPairs hex, x < 256 := by
  induction hex using hexPairs.induct with
  | case1 a l hex ih =>
    have ha := hexDigitValue_lt (h a (by simp))
    have hl := hexDigitValue_lt (h l (by simp))
    intro x hx
    rw [hexPairs] at hx
    rcases List.mem_cons.mp hx with rfl | hx
    · omega
    · exact ih (fun c hc => h c (by simp [hc])) x hx
  | case2 hex hne =>
    intro x hx
    rw [hexPairs] at hx
    · cases hx
    · exact hne

theorem hexPairs_length (hex : List Char) : (hexPairs hex).length = hex.length / 2 := by
  induction hex using hexPairs.induct with
  | case1 a l hex ih =>
    rw [hexPairs, List.length_cons, ih, List.length_cons, List.length_cons]
    omega
  | case2 hex hne =>
    rw [hexPairs]
    · match hex, hne with
      | [], _ => rfl
      | [a], _ => exact (Nat.div_eq_of_lt (Nat.lt_succ_self 1)).symm
      | a :: l :: hex, hne => exact absurd rfl (hne a l hex)
    · exact hne

theorem hexToBytes_some {hex : List Char} {bytes : List Nat} (h : hexToBytes hex = some bytes) :
    (∀ x ∈ bytes, x < 256) ∧ hex.length = 2 * bytes.length := by
  unfold hexToBytes at h
  split at h
  next => cases h
  next hc =>
    cases h
    rw [not_or, not_or, not_not, not_not] at hc
    refine ⟨hexPairs_lt fun c hm => List.all_eq_true.mp hc.2.1 c hm, ?_⟩
    rw [hexPairs_length]
    omega

end Bytes

section Configs

/-- The command of a control code and data identifier, with the phase it is for. -/
def kindOf (controlCode : Nat) (dataIdentifier : List Nat) : Option (CommandType × Option Phase) :=
  match controlCode, dataIdentifier with
  | 0x04, [0xC0, 0x3D] => some (.turnOn, none)
  | 0x04, [0xC0, 0x3C] => some (.turnOff, none)
  | 0x04, [0xC0, 0x10] => some (.setDate, none)
  | 0x04, [0xC0, 0x11] => some (.setTime, none)
  | 0x01, [0xE4, 0x21] => some (.readCredit, none)
  | 0x01, [0xC0, 0x10] => some (.readDate, none)
  | 0x01, [0xC0, 0x11] => some (.readTime, none)
  | 0x01, [0xB6, 0x11] => some (.readVoltage, some .A)
  | 0x01, [0xB6, 0x12] => some (.readVoltage, some .B)
  | 0x01, [0xB6, 0x13] => some (.readVoltage, some .C)
  | 0x01, [0xB6, 0x30] => some (.readPower, some .A)
  | 0x01, [0xB6, 0x31] => some (.readPower, some .B)
  | 0x01, [0xB6, 0x32] => some (.readPower, some .C)
  | 0x01, [0xB6, 0x21] => some (.readCurrent, some .A)
  | 0x01, [0xB6, 0x22] => some (.readCurrent, some .B)
  | 0x01, [0xB6, 0x23] => some (.readCurrent, some .C)
  | _, _ => none

/-- What is known of a configuration for the bytes a command writes. -/
structure CommandConfig.Carries (config : CommandConfig) (c : ToEncode) (ws : List Nat) : Prop where
  written : c.written = some ws
  identifier : config.dataIdentifier.length = 2 ∧ ∀ x ∈ config.dataIdentifier, x < 256
  kind : c.kind = kindOf config.controlCode config.dataIdentifier
  password : config.requiresPassword = true ↔ config.controlCode = 0x04
  control : config.controlCode < 256
  bytes : ∀ x ∈ ws, x < 256
  data : writeBytesOf config =
    (if config.requiresPassword then (passwordBytes.map add33H).reverse else []) ++
      (ws.map add33H).reverse
  short : ¬ isTokenCommand c.requestType → ws.length ≤ 4
  token : isTokenCommand c.requestType → config.controlCode = 0x00

theorem bcd_eq {v : Nat} (hv : v ≤ 99) : (v / 10) <<< 4 ||| v % 10 = 16 * (v / 10) + v % 10 := by
  revert v
  decide

/-- Only the whole numbers from 0 to 99 have a byte. -/
theorem toBcd_some {value : ℚ} {n : Nat} (h : toBcd value = some n) :
    ∃ v : Nat, value = v ∧ v ≤ 99 ∧ n = 16 * (v / 10) + v % 10 := by
  unfold toBcd at h
  split at h
  next => cases h
  next hv =>
    cases h
    rw [not_or, not_or, not_not, not_lt, not_lt] at hv
    obtain ⟨hint, h0, h99⟩ := hv
    have hnum : (value.num : ℚ) = value := Rat.coe_int_num_of_den_eq_one hint
    have hnat : (value.num.toNat : Int) = value.num := Int.toNat_of_nonneg (Rat.num_nonneg.mpr h0)
    have hcast : ((value.num.toNat : Nat) : ℚ) = value := by
      rw [← hnum]
      exact_mod_cast hnat
    have hle : value.num.toNat ≤ 99 := by
      rw [← hcast] at h99
      exact_mod_cast h99
    exact ⟨value.num.toNat, hcast.symm, hle, bcd_eq hle⟩

theorem toBcd_lt {value : ℚ} {n : Nat} (h : toBcd value = some n) : n < 256 := by
  obtain ⟨v, -, hv, rfl⟩ := toBcd_some h
  omega

theorem encodeDateBytes_some {p : SetDatePayload} {ws : List Nat}
    (h : encodeDateBytes p = some ws) : (∀ x ∈ ws, x < 256) ∧ ws.length ≤ 4 := by
  unfold encodeDateBytes at h
  simp only [Option.bind_eq_bind, Option.bind_eq_some_iff] at h
  obtain ⟨weekday, -, y, hy, m, hm, d, hd, w, hw, h⟩ := h
  cases h
  simp only [List.mem_cons, List.not_mem_nil, or_false, forall_eq_or_imp, forall_eq]
  exact ⟨⟨toBcd_lt hy, toBcd_lt hm, toBcd_lt hd, toBcd_lt hw⟩, Nat.le_refl 4⟩

theorem encodeTimeBytes_some {p : SetTimePayload} {ws : List Nat}
    (h : encodeTimeBytes p = some ws) : (∀ x ∈ ws, x < 256) ∧ ws.length ≤ 4 := by
  unfold encodeTimeBytes at h
  simp only [Option.bind_eq_bind, Option.bind_eq_some_iff] at h
  obtain ⟨hour, hh, m, hm, s, hs, h⟩ := h
  cases h
  simp only [List.mem_cons, List.not_mem_nil, or_false, forall_eq_or_imp, forall_eq]
  exact ⟨⟨toBcd_lt hh, toBcd_lt hm, toBcd_lt hs⟩, (by decide : 3 ≤ 4)⟩

theorem carries_read {c : ToEncode} {dataIdentifier : List Nat}
    (ht : ¬ isTokenCommand c.requestType)
    (hc : determineCommandConfig c = some (readConfig dataIdentifier))
    (hid : dataIdentifier.length = 2 ∧ ∀ x ∈ dataIdentifier, x < 256)
    (hk : c.kind = kindOf 0x01 dataIdentifier) : (readConfig dataIdentifier).Carries c [] where
  written := by
    unfold ToEncode.written
    rw [if_neg ht, hc]
    rfl
  identifier := hid
  kind := hk
  password := by simp [readConfig]
  control := (by decide : 0x01 < 256)
  bytes := fun x hx => nomatch hx
  data := rfl
  short := fun _ => Nat.zero_le 4
  token := fun h => absurd h ht

theorem carries_write {c : ToEncode} {dataIdentifier written : List Nat}
    (ht : ¬ isTokenCommand c.requestType)
    (hc : determineCommandConfig c = some (writeConfig dataIdentifier written))
    (hid : dataIdentifier.length = 2 ∧ ∀ x ∈ dataIdentifier, x < 256)
    (hk : c.kind = kindOf 0x04 dataIdentifier) (hw : ∀ x ∈ written, x < 256)
    (hlen : written.length ≤ 4) : (writeConfig dataIdentifier written).Carries c written where
  written := by
    unfold ToEncode.written
    rw [if_neg ht, hc]
    rfl
  identifier := hid
  kind := hk
  password := by simp [writeConfig]
  control := (by decide : 0x04 < 256)
  bytes := hw
  data := rfl
  short := fun _ => hlen
  token := fun h => absurd h ht

theorem carries_token {c : ToEncode} {tokenBytes : List Nat} (ht : isTokenCommand c.requestType)
    (hc : tokenBytesOf c.token = some tokenBytes) : (tokenConfig tokenBytes).Carries c tokenBytes where
  written := by
    unfold ToEncode.written
    rw [if_pos ht, hc]
  identifier := (by decide : [0xA1, 0x20].length = 2 ∧ ∀ x ∈ [0xA1, 0x20], x < 256)
  kind := by
    unfold ToEncode.kind
    rw [if_pos ht]
    rfl
  password := by simp [tokenConfig]
  control := (by decide : 0x00 < 256)
  bytes := by
    obtain ⟨token, -, h⟩ := Option.bind_eq_some_iff.mp hc
    exact (hexToBytes_some h).1
  data := rfl
  short := fun h => absurd ht h
  token := fun _ => rfl

theorem kind_plain {c : ToEncode} (ht : ¬ isTokenCommand c.requestType)
    (hv : c.requestType ≠ .readVoltage) (hp : c.requestType ≠ .readPower)
    (hc : c.requestType ≠ .readCurrent) : c.kind = some (c.requestType, none) := by
  unfold ToEncode.kind
  rw [if_neg ht, if_neg (by simp [hv, hp, hc])]

theorem kind_phase {c : ToEncode} (ht : ¬ isTokenCommand c.requestType)
    (h : c.requestType = .readVoltage ∨ c.requestType = .readPower ∨ c.requestType = .readCurrent) :
    c.kind = some (c.requestType, some c.devicePhase) := by
  unfold ToEncode.kind
  rw [if_neg ht, if_pos h]

theorem determineCommandConfig_carries {c : ToEncode} {config : CommandConfig}
    (h : determineCommandConfig c = some config) : ∃ ws, config.Carries c ws := by
  have h' := h
  unfold determineCommandConfig at h'
  by_cases ht : isTokenCommand c.requestType
  · rw [if_pos ht] at h'
    obtain ⟨tokenBytes, hb, rfl⟩ := Option.map_eq_some_iff.mp h'
    exact ⟨tokenBytes, carries_token ht hb⟩
  rw [if_neg ht] at h'
  have hplain := kind_plain ht
  have hphase := kind_phase ht
  split at h'
  next hr =>
    rw [hr] at hplain
    cases h'
    exact ⟨_, carries_write ht h (by decide) (hplain nofun nofun nofun) (by decide) (by decide)⟩
  next hr =>
    rw [hr] at hplain
    cases h'
    exact ⟨_, carries_write ht h (by decide) (hplain nofun nofun nofun) (by decide) (by decide)⟩
  next hr =>
    rw [hr] at hplain
    split at h'
    next p hp =>
      obtain ⟨ws, hws, rfl⟩ := Option.map_eq_some_iff.mp h'
      obtain ⟨hlt, hlen⟩ := encodeDateBytes_some hws
      exact ⟨_, carries_write ht h (by decide) (hplain nofun nofun nofun) hlt hlen⟩
    next => cases h'
  next hr =>
    rw [hr] at hplain
    split at h'
    next p hp =>
      obtain ⟨ws, hws, rfl⟩ := Option.map_eq_some_iff.mp h'
      obtain ⟨hlt, hlen⟩ := encodeTimeBytes_some hws
      exact ⟨_, carries_write ht h (by decide) (hplain nofun nofun nofun) hlt hlen⟩
    next => cases h'
  next hr =>
    rw [hr] at hplain
    cases h'
    exact ⟨_, carries_read ht h (by decide) (hplain nofun nofun nofun)⟩
  next hr =>
    rw [hr] at hplain
    cases h'
    exact ⟨_, carries_read ht h (by decide) (hplain nofun nofun nofun)⟩
  next hr =>
    rw [hr] at hplain
    cases h'
    exact ⟨_, carries_read ht h (by decide) (hplain nofun nofun nofun)⟩
  next hr =>
    cases h'
    refine ⟨_, carries_read ht h ?_ ?_⟩
    · cases c.devicePhase <;> decide
    · rw [hphase (.inl hr), hr]
      cases c.devicePhase <;> rfl
  next hr =>
    cases h'
    refine ⟨_, carries_read ht h ?_ ?_⟩
    · cases c.devicePhase <;> decide
    · rw [hphase (.inr (.inl hr)), hr]
      cases c.devicePhase <;> rfl
  next hr =>
    cases h'
    refine ⟨_, carries_read ht h ?_ ?_⟩
    · cases c.devicePhase <;> decide
    · rw [hphase (.inr (.inr hr)), hr]
      cases c.devicePhase <;> rfl
  next => cases h'

end Configs

section Frames

def frameData (config : CommandConfig) : List Nat :=
  (config.dataIdentifier.map add33H).reverse ++ writeBytesOf config

theorem encodeFrame_eq {config : CommandConfig} (address : List Nat)
    (hid : config.dataIdentifier.length = 2) :
    encodeFrame address config = requestBody address config.controlCode (frameData config) ++
      [(requestBody address config.controlCode (frameData config)).sum % 256, 0x16] := by
  have hlen : (frameData config).length = 2 + (writeBytesOf config).length := by
    simp [frameData, hid]
  unfold encodeFrame requestBody
  rw [hlen]
  simp only [frameData, List.cons_append, List.nil_append, List.append_assoc]

theorem requestBody_length {address : List Nat} (ha : address.length = 6) (controlCode : Nat)
    (data : List Nat) : (requestBody address controlCode data).length = 10 + data.length := by
  simp only [requestBody, List.cons_append, List.length_cons, List.length_append, List.length_reverse, ha]
  omega

variable {address : List Nat} {controlCode : Nat} {data tail : List Nat}

theorem requestBody_address (ha : address.length = 6) :
    slice (requestBody address controlCode data ++ tail) 1 7 = address.reverse := by
  have hlen : address.reverse.length = 6 := by rw [List.length_reverse, ha]
  unfold slice requestBody
  rw [List.cons_append, List.cons_append, List.append_assoc, List.take_succ_cons, List.drop_succ_cons,
    List.drop_zero, List.take_left' hlen]

theorem requestBody_head (ha : address.length = 6) {k : Nat} :
    (requestBody address controlCode data ++ tail)[7 + k]? =
      (0x68 :: controlCode :: data.length :: data ++ tail)[k]? := by
  have hlen : address.reverse.length = 6 := by rw [List.length_reverse, ha]
  have hk : 7 + k = 6 + k + 1 := by omega
  unfold requestBody
  rw [List.cons_append, List.cons_append, List.append_assoc, hk, List.getElem?_cons_succ,
    List.getElem?_append_right (by omega), hlen, Nat.add_sub_cancel_left]

theorem requestBody_drop (ha : address.length = 6) (controlCode : Nat) (data : List Nat) :
    (requestBody address controlCode data).drop 10 = data := by
  have hhead : (0x68 :: address.reverse ++ [0x68, controlCode, data.length]).length = 10 := by
    simp [ha]
  have hsplit : requestBody address controlCode data =
      0x68 :: address.reverse ++ [0x68, controlCode, data.length] ++ data := by
    simp [requestBody]
  rw [hsplit, List.drop_left' hhead]

theorem requestBody_data (ha : address.length = 6) (htail : tail.length = 2) :
    slice (requestBody address controlCode data ++ tail) 10
      ((requestBody address controlCode data ++ tail).length - 2) = data := by
  unfold slice
  rw [List.length_append, htail, Nat.add_sub_cancel, List.take_left, requestBody_drop ha controlCode data]

/-- The frame of a command is read back as the command. -/
theorem undo_encodeFrame {c : ToEncode} {config : CommandConfig} {ws : List Nat}
    (ha : address.length = 6) (hc : config.Carries c ws) :
    undoFrame (encodeFrame address config) = {
      address := address
      controlCode := config.controlCode
      dataIdentifier := config.dataIdentifier
      password := if config.requiresPassword then passwordBytes else []
      written := ws } := by
  obtain ⟨hidlen, hidlt⟩ := hc.identifier
  have hdilen : (config.dataIdentifier.map add33H).reverse.length = 2 := by simp [hidlen]
  have hcontrol : (requestBody address config.controlCode (frameData config) ++
      [(requestBody address config.controlCode (frameData config)).sum % 256, 0x16])[8]? =
      some config.controlCode := requestBody_head ha (k := 1)
  have hpw : undoBytes (passwordBytes.map add33H).reverse = passwordBytes :=
    undoBytes_scrambled (by decide)
  have hpwlen : (passwordBytes.map add33H).reverse.length = 4 := by decide
  unfold undoFrame
  rw [encodeFrame_eq address hidlen, hcontrol, requestBody_address ha, requestBody_data ha rfl,
    List.reverse_reverse, Option.getD_some]
  dsimp only
  have htake : (frameData config).take 2 = (config.dataIdentifier.map add33H).reverse :=
    List.take_left' hdilen
  have hdrop : (frameData config).drop 2 = writeBytesOf config := List.drop_left' hdilen
  rw [htake, undoBytes_scrambled hidlt, ← List.drop_drop, hdrop, hc.data]
  by_cases hp : config.requiresPassword = true
  · rw [if_pos hp, if_pos hp, if_pos (hc.password.mp hp), List.take_left' hpwlen,
      List.drop_left' hpwlen, hpw, undoBytes_scrambled hc.bytes]
  · rw [if_neg hp, if_neg hp, if_neg fun h => hp (hc.password.mpr h), List.nil_append,
      List.take_zero, List.drop_zero, undoBytes_scrambled hc.bytes]
    rfl

/-- Every frame but the fixed one is built from an address of six bytes and a configuration. -/
theorem encodeRequestData_some {c : ToEncode} {frame : List Nat}
    (h : encodeRequestData c = some frame) (hd : c.requestType ≠ .readPowerLimit) :
    ∃ address config ws, deviceEuiBytesOf c.deviceIdentifier = some address ∧
      address.length = 6 ∧ (∀ x ∈ address, x < 256) ∧ determineCommandConfig c = some config ∧
      config.Carries c ws ∧ frame = encodeFrame address config := by
  unfold encodeRequestData at h
  rw [if_neg hd] at h
  simp only [Option.bind_eq_bind, Option.bind_eq_some_iff] at h
  obtain ⟨address, haddress, config, hconfig, h⟩ := h
  obtain ⟨hbytes, hlen⟩ := Option.filter_eq_some_iff.mp haddress
  obtain ⟨ws, hws⟩ := determineCommandConfig_carries hconfig
  exact ⟨address, config, ws, haddress, of_decide_eq_true hlen, (hexToBytes_some hbytes).1, hconfig,
    hws, (Option.some.inj h).symm⟩

theorem frameData_lt {c : ToEncode} {config : CommandConfig} {ws : List Nat}
    (hc : config.Carries c ws) : ∀ x ∈ frameData config, x < 256 := by
  have hscrambled : ∀ bytes : List Nat, ∀ x ∈ (bytes.map add33H).reverse, x < 256 := by
    intro bytes x hx
    obtain ⟨y, -, rfl⟩ := List.mem_map.mp (List.mem_reverse.mp hx)
    exact add33H_lt y
  intro x hx
  unfold frameData at hx
  rw [hc.data] at hx
  rcases List.mem_append.mp hx with hx | hx
  · exact hscrambled _ x hx
  · rcases List.mem_append.mp hx with hx | hx
    · split at hx
      · exact hscrambled _ x hx
      · cases hx
    · exact hscrambled _ x hx

/-- The elements of a frame are bytes just when its size is one. -/
theorem encodeFrame_lt {c : ToEncode} {config : CommandConfig} {ws : List Nat}
    (haddress : ∀ x ∈ address, x < 256) (hc : config.Carries c ws) :
    (∀ x ∈ encodeFrame address config, x < 256) ↔ (frameData config).length < 256 := by
  have hmod : (requestBody address config.controlCode (frameData config)).sum % 256 < 256 :=
    Nat.mod_lt _ (by decide)
  rw [encodeFrame_eq address hc.identifier.1]
  constructor
  · intro h
    refine h _ (List.mem_append_left _ ?_)
    simp [requestBody]
  · intro h x hx
    rcases List.mem_append.mp hx with hx | hx
    · unfold requestBody at hx
      simp only [List.cons_append, List.mem_cons, List.mem_append, List.mem_reverse] at hx
      rcases hx with rfl | hx | rfl | rfl | rfl | hx
      · decide
      · exact haddress x hx
      · decide
      · exact hc.control
      · exact h
      · exact frameData_lt hc x hx
    · simp only [List.mem_cons, List.not_mem_nil, or_false] at hx
      rcases hx with rfl | rfl
      · exact hmod
      · decide

theorem frameData_length {c : ToEncode} {config : CommandConfig} {ws : List Nat}
    (hc : config.Carries c ws) :
    (frameData config).length = 2 + (if config.requiresPassword then 4 else 0) + ws.length := by
  unfold frameData
  rw [hc.data, List.length_append, List.length_append, List.length_reverse, List.length_map,
    hc.identifier.1, List.length_reverse, List.length_map]
  split
  · rw [Nat.add_assoc]
    rfl
  · rw [Nat.add_assoc]
    rfl

/-- The size of a frame is a byte unless its token has more than 506 digits. -/
theorem frameData_short {c : ToEncode} {config : CommandConfig} {ws : List Nat}
    (hc : config.Carries c ws) : (frameData config).length < 256 ↔
      (isTokenCommand c.requestType → ∀ token ∈ c.token, token.length ≤ 506) := by
  have hlen := frameData_length hc
  have hwritten := hc.written
  unfold ToEncode.written at hwritten
  by_cases ht : isTokenCommand c.requestType
  · rw [if_pos ht] at hwritten
    obtain ⟨token, htoken, hbytes⟩ := Option.bind_eq_some_iff.mp hwritten
    have htoken : c.token = some token := (Option.filter_eq_some_iff.mp htoken).1
    have hcount := (hexToBytes_some hbytes).2
    rw [String.length_toList] at hcount
    have hpass : ¬ config.requiresPassword = true := fun hp =>
      absurd ((hc.password.mp hp).symm.trans (hc.token ht)) (by decide)
    rw [if_neg hpass] at hlen
    constructor
    · rintro h - t hmem
      rw [htoken] at hmem
      cases hmem
      omega
    · intro h
      have := h ht token htoken
      omega
  · have hshort := hc.short ht
    refine ⟨fun _ h => absurd h ht, fun _ => ?_⟩
    split at hlen <;> omega

theorem encodeFrame_head (address : List Nat) {config : CommandConfig}
    (hid : config.dataIdentifier.length = 2) : encodeFrame address config ≠ encodeDlms := by
  rw [encodeFrame_eq address hid]
  unfold requestBody encodeDlms
  simp

theorem carries_kind {c c' : ToEncode} {config config' : CommandConfig} {ws ws' : List Nat}
    (hc : config.Carries c ws) (hc' : config'.Carries c' ws')
    (hcontrol : config.controlCode = config'.controlCode)
    (hid : config.dataIdentifier = config'.dataIdentifier) : c.kind = c'.kind := by
  rw [hc.kind, hc'.kind, hcontrol, hid]

end Frames

/-- A frame that is not the fixed one is faithful just when no token of more than 506 digits
was asked for. -/
theorem encoded_faithful {c : ToEncode} {frame : List Nat} (h : encodeRequestData c = some frame)
    (hd : c.requestType ≠ .readPowerLimit) :
    FaithfulFrame c frame ↔
      (isTokenCommand c.requestType → ∀ token ∈ c.token, token.length ≤ 506) := by
  obtain ⟨address, config, ws, haddress, ha, hbytes, hconfig, hc, rfl⟩ :=
    encodeRequestData_some h hd
  rw [← frameData_short hc, ← encodeFrame_lt hbytes hc]
  refine ⟨FaithfulFrame.bytes, fun hlt => ⟨hlt, ?_, ?_, fun c' h' => ?_⟩⟩
  · exact ⟨address, _, _, haddress, ha, encodeFrame_eq address hc.identifier.1⟩
  · rw [undo_encodeFrame ha hc]
    unfold ToEncode.wireCommand
    rw [haddress, hconfig, hc.written]
    rfl
  · by_cases hd' : c'.requestType = .readPowerLimit
    · unfold encodeRequestData at h'
      rw [if_pos hd'] at h'
      exact absurd (Option.some.inj h').symm (encodeFrame_head address hc.identifier.1)
    · obtain ⟨address', config', ws', haddress', ha', -, -, hc', hframe⟩ :=
        encodeRequestData_some h' hd'
      have hundo := congrArg undoFrame hframe
      rw [undo_encodeFrame ha hc, undo_encodeFrame ha' hc'] at hundo
      obtain ⟨haddr, hcontrol, hid, -, hws⟩ := WireCommand.mk.inj hundo
      refine ⟨?_, carries_kind hc hc' hcontrol hid, ?_⟩
      · rw [haddress, haddress', haddr]
      · rw [hc.written, hc'.written, hws]


def topUp (token : String) : ToEncode where
  deviceIdentifier := "47001234567"
  devicePhase := .A
  requestType := .topUpKwh
  token := some token

theorem topUp_faithful : ∃ frame, encodeRequestData (topUp "12345678901234567890") = some frame ∧
    FaithfulFrame (topUp "12345678901234567890") frame :=
  ⟨encodeFrame [0x04, 0x70, 0x01, 0x23, 0x45, 0x67]
    (tokenConfig [0x12, 0x34, 0x56, 0x78, 0x90, 0x12, 0x34, 0x56, 0x78, 0x90]), by decide,
    (encoded_faithful (by decide) (by decide)).mpr (by decide)⟩

def longToken : String :=
  String.ofList (List.replicate 508 '0')

theorem topUp_encoded {token : String} {n : Nat} (ht : token.toList = List.replicate n '0')
    (hn : 0 < n) (heven : n % 2 = 0) : ∃ frame, encodeRequestData (topUp token) = some frame := by
  have hne : List.replicate n '0' ≠ [] :=
    List.ne_nil_of_length_pos (by rwa [List.length_replicate])
  have htoken : token ≠ "" := by
    rintro rfl
    exact hne ht.symm
  have hhex : (List.replicate n '0').all isHexDigit = true :=
    List.all_eq_true.mpr fun c hc => List.eq_of_mem_replicate hc ▸ rfl
  have hbytes : tokenBytesOf (some token) = some (hexPairs (List.replicate n '0')) := by
    have hfilter : (some token).filter (fun t => decide (t ≠ "")) = some token :=
      Option.filter_eq_some_iff.mpr ⟨rfl, decide_eq_true htoken⟩
    unfold tokenBytesOf
    rw [hfilter, Option.bind_some, ht]
    unfold hexToBytes
    refine if_neg ?_
    rintro (he | he | he)
    · exact hne he
    · exact he hhex
    · rw [List.length_replicate] at he
      exact he heven
  have haddress : deviceEuiBytesOf "47001234567" = some [0x04, 0x70, 0x01, 0x23, 0x45, 0x67] := by
    decide
  unfold encodeRequestData determineCommandConfig topUp
  simp [haddress, hbytes, isTokenCommand]

theorem topUp_unfaithful {token : String} {n : Nat} (ht : token.toList = List.replicate n '0')
    (hn : 506 < n) (heven : n % 2 = 0) :
    ∃ frame, encodeRequestData (topUp token) = some frame ∧ ¬ FaithfulFrame (topUp token) frame := by
  have hplain : (topUp token).requestType ≠ .readPowerLimit := fun h => by cases h
  obtain ⟨frame, hf⟩ := topUp_encoded ht (by omega) heven
  refine ⟨frame, hf, fun hfaithful => ?_⟩
  have hshort := (encoded_faithful hf hplain).mp hfaithful
  have htop : isTokenCommand .topUpKwh := by decide
  have hlen : token.length ≤ 506 := hshort htop token rfl
  rw [← String.length_toList, ht, List.length_replicate] at hlen
  omega

/-- A token of 508 digits gives a size of 256, which is no byte. -/
theorem longToken_overflows :
    ¬ ∀ c frame, encodeRequestData c = some frame → c.requestType ≠ .readPowerLimit →
      FaithfulFrame c frame := by
  intro h
  have hlist : longToken.toList = List.replicate 508 '0' := String.toList_ofList
  obtain ⟨frame, hf, hwrong⟩ := topUp_unfaithful hlist (by decide) (by decide)
  exact hwrong (h _ frame hf (by decide))

end Calin

end DeviceMessaging
