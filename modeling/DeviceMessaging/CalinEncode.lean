import DeviceMessaging.CalinDecode
import DeviceMessaging.JsDates

namespace DeviceMessaging

def isTokenCommand (commandType : CommandType) : Prop :=
  commandType = .clearCredit ∨ commandType = .clearTamper ∨ commandType = .setPowerLimit ∨
    commandType = .topUpKwh ∨ commandType = .deliverPreexistingToken

instance (commandType : CommandType) : Decidable (isTokenCommand commandType) :=
  inferInstanceAs (Decidable (_ ∨ _))

structure SetDatePayload where
  year : ℚ
  month : ℚ
  day : ℚ

structure SetTimePayload where
  hour : ℚ
  minute : ℚ
  second : Option ℚ

namespace Calin

inductive Payload
  | date (payload : SetDatePayload)
  | time (payload : SetTimePayload)

structure ToEncode where
  deviceIdentifier : String
  devicePhase : Phase
  requestType : CommandType
  token : Option String := none
  payload : Option Payload := none

structure CommandConfig where
  controlCode : Nat
  dataIdentifier : List Nat
  rawWriteData : List Nat
  requiresPassword : Bool
  deriving DecidableEq

def isHexDigit (c : Char) : Bool :=
  c.isDigit || ('a' ≤ c && c ≤ 'f') || ('A' ≤ c && c ≤ 'F')

def hexDigitValue (c : Char) : Nat :=
  if c.isDigit then c.toNat - 48 else if 'a' ≤ c then c.toNat - 87 else c.toNat - 55

/-- The bytes of the pairs of digits. -/
def hexPairs (hex : List Char) : List Nat :=
  match hex with
  | h :: l :: hex => (16 * hexDigitValue h + hexDigitValue l) :: hexPairs hex
  | _ => []

def hexToBytes (hex : List Char) : Option (List Nat) :=
  if hex = [] ∨ ¬ hex.all isHexDigit ∨ hex.length % 2 ≠ 0 then none else some (hexPairs hex)

def padStart (text : List Char) (n : Nat) (fill : Char) : List Char :=
  List.replicate (n - text.length) fill ++ text

/-- Scrambled for the wire. -/
def add33H (byte : Nat) : Nat :=
  (byte + 0x33) % 256

/-- A value from 0 to 99 in one byte of two decimal digits. -/
def toBcd (value : ℚ) : Option Nat :=
  if ¬ isInteger value ∨ value < 0 ∨ 99 < value then none
  else some ((value.num.toNat / 10) <<< 4 ||| value.num.toNat % 10)

def fullYearOf (year : ℚ) : ℚ :=
  if year < 100 then 2000 + year else year

def encodeDateBytes (p : SetDatePayload) : Option (List Nat) := do
  let fullYear := fullYearOf p.year
  let weekday ← getUTCDay (dateUTC fullYear (p.month - 1) p.day)
  let yearBcd ← toBcd (jsMod fullYear 100)
  let monthBcd ← toBcd p.month
  let dayBcd ← toBcd p.day
  let weekdayBcd ← toBcd weekday
  return [yearBcd, monthBcd, dayBcd, weekdayBcd]

def encodeTimeBytes (p : SetTimePayload) : Option (List Nat) := do
  let hourBcd ← toBcd p.hour
  let minuteBcd ← toBcd p.minute
  let secondBcd ← toBcd (p.second.getD 0)
  return [hourBcd, minuteBcd, secondBcd]

def readCurrentByPhase (phase : Phase) : List Nat :=
  match phase with
  | .A => [0xB6, 0x21]
  | .B => [0xB6, 0x22]
  | .C => [0xB6, 0x23]

def readPowerByPhase (phase : Phase) : List Nat :=
  match phase with
  | .A => [0xB6, 0x30]
  | .B => [0xB6, 0x31]
  | .C => [0xB6, 0x32]

def readVoltageByPhase (phase : Phase) : List Nat :=
  match phase with
  | .A => [0xB6, 0x11]
  | .B => [0xB6, 0x12]
  | .C => [0xB6, 0x13]

def readConfig (dataIdentifier : List Nat) : CommandConfig :=
  ⟨0x01, dataIdentifier, [], false⟩

def writeConfig (dataIdentifier rawWriteData : List Nat) : CommandConfig :=
  ⟨0x04, dataIdentifier, rawWriteData, true⟩

def tokenConfig (tokenBytes : List Nat) : CommandConfig :=
  ⟨0x00, [0xA1, 0x20], (tokenBytes.map add33H).reverse, false⟩

/-- The bytes of a token, of which the empty one is none. -/
def tokenBytesOf (token : Option String) : Option (List Nat) :=
  (token.filter (· ≠ "")).bind fun token => hexToBytes token.toList

def determineCommandConfig (c : ToEncode) : Option CommandConfig :=
  if isTokenCommand c.requestType then (tokenBytesOf c.token).map tokenConfig
  else
    match c.requestType with
    | .turnOn => some (writeConfig [0xC0, 0x3D] [0x96])
    | .turnOff => some (writeConfig [0xC0, 0x3C] [0x35])
    | .setDate =>
      match c.payload with
      | some (.date p) => (encodeDateBytes p).map (writeConfig [0xC0, 0x10])
      | _ => none
    | .setTime =>
      match c.payload with
      | some (.time p) => (encodeTimeBytes p).map (writeConfig [0xC0, 0x11])
      | _ => none
    | .readCredit => some (readConfig [0xE4, 0x21])
    | .readDate => some (readConfig [0xC0, 0x10])
    | .readTime => some (readConfig [0xC0, 0x11])
    | .readVoltage => some (readConfig (readVoltageByPhase c.devicePhase))
    | .readPower => some (readConfig (readPowerByPhase c.devicePhase))
    | .readCurrent => some (readConfig (readCurrentByPhase c.devicePhase))
    | _ => none

def encodeDlms : List Nat :=
  [0x00, 0x01, 0x00, 0x66, 0x00, 0x01, 0x00, 0x0D, 0xC0, 0x01, 0xC1, 0x00,
    0x47, 0x00, 0x00, 0x11, 0x00, 0x00, 0xFF, 0x03, 0x00]

def passwordBytes : List Nat :=
  [0x00, 0x00, 0x00, 0x00]

def writeBytesOf (config : CommandConfig) : List Nat :=
  if config.requiresPassword then
    (passwordBytes.map add33H).reverse ++ (config.rawWriteData.map add33H).reverse
  else config.rawWriteData

def encodeFrame (deviceEuiBytes : List Nat) (config : CommandConfig) : List Nat :=
  let writeBytes := writeBytesOf config
  let frameBody := [0x68] ++ deviceEuiBytes.reverse ++ [0x68] ++
    [config.controlCode, 0x02 + writeBytes.length] ++
    (config.dataIdentifier.map add33H).reverse ++ writeBytes
  frameBody ++ [frameBody.sum % 256, 0x16]

def deviceEuiBytesOf (deviceIdentifier : String) : Option (List Nat) :=
  (hexToBytes (padStart deviceIdentifier.toList 12 '0')).filter fun bytes => bytes.length = 6

/-- The elements of a frame are numbers; they become bytes where it is sent. -/
def encodeRequestData (c : ToEncode) : Option (List Nat) :=
  if c.requestType = .readPowerLimit then some encodeDlms
  else do
    let deviceEuiBytes ← deviceEuiBytesOf c.deviceIdentifier
    let config ← determineCommandConfig c
    return encodeFrame deviceEuiBytes config

end Calin

end DeviceMessaging
