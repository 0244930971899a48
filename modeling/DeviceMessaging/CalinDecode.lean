import Mathlib.Algebra.Order.Ring.Rat
import DeviceMessaging.ByteSlices
import DeviceMessaging.DecimalText
import DeviceMessaging.MessageTypes

namespace DeviceMessaging

open ByteSlices

namespace Calin

abbrev Byte := UInt8

def HEADER_BYTE : Byte := 0x68

def END_BYTE : Byte := 0x16

inductive ControlCode
  | READING | READING_SUCCESS | READING_FAILURE
  | WRITING | WRITING_SUCCESS | WRITING_FAILURE
  | SEND_TOKEN | SEND_TOKEN_SUCCESS | SEND_TOKEN_FAILURE
  deriving DecidableEq

def CONTROL_CODE_MAP (byte : Option Byte) : Option ControlCode :=
  match byte with
  | some 0x81 => some .READING_SUCCESS
  | some 0xC1 => some .READING_FAILURE
  | some 0x84 => some .WRITING_SUCCESS
  | some 0xC4 => some .WRITING_FAILURE
  | some 0x80 => some .SEND_TOKEN_SUCCESS
  | some 0xC0 => some .SEND_TOKEN_FAILURE
  | _ => none

section Numbers

/-- `buffer.readUIntBE(0, buffer.length)`. -/
def hexArrayToNumber (buffer : List Byte) : Nat :=
  buffer.foldl (fun n b => 256 * n + b.toNat) 0

def subtract33H (byte : Byte) : Nat :=
  (byte.toNat + 256 - 0x33) % 256

/-- `x << k` of JavaScript: in 32 bits, and signed. -/
def shiftLeft (x k : Nat) : Int :=
  (BitVec.ofNat 32 x <<< (k % 32)).toInt

def reverseAndCombine (byteArray : List Byte) : Int :=
  byteArray.zipIdx.foldl (fun acc e => acc + shiftLeft (subtract33H e.1) (e.2 * 8)) 0

/-- The bits of the 32-bit float; `null` when there are not four bytes. -/
def processFloatFromBytes (bytes : List Byte) : Option Nat :=
  if bytes.length ≠ 4 then none
  else some ((bytes.map subtract33H).reverse.foldl (fun n b => 256 * n + b) 0)

/-- `parseInt` of the nibbles printed one behind the other; `none` is `NaN`. -/
def bcdToInteger (bcdArray : List Nat) : Option Nat :=
  DecimalText.scanWhole (bcdArray.reverse.flatMap fun byte =>
    Nat.toDigits 10 (byte / 16 % 16) ++ Nat.toDigits 10 (byte % 16))

/-- `x.toString(16)`. -/
def hexText (x : Option Nat) : List Char :=
  match x with
  | some n => Nat.toDigits 16 n
  | none => ['N', 'a', 'N']

/-- `('0' + x.toString(16)).slice(-2)`. -/
def bcdToString (x : Option Nat) : String :=
  let text := '0' :: hexText x
  String.ofList (text.drop (text.length - 2))

def parseDateTimeByte (byte : Option Byte) : String :=
  bcdToString (byte.map subtract33H)

end Numbers

structure MeterStatus where
  relayOpen : Bool
  batteryLow : Bool
  magneticInterference : Bool
  terminalCoverOpen : Bool
  coverOpen : Bool
  source2Activated : Bool
  currentReverse : Bool
  currentUnbalance : Bool
  deriving DecidableEq

structure ReadReport where
  freezeTime : String
  consumptionSource1 : ℚ
  purchaseRemainSource1 : Option Nat
  consumptionSource2 : ℚ
  purchaseRemainSource2 : Option Nat
  intervalDemand : Int
  voltage : ℚ
  current : ℚ
  meterStatus : MeterStatus
  deriving DecidableEq

/-- What a meter reports; a number that is `NaN` is `none`. -/
inductive Reading
  | voltage (voltage : Option ℚ) (phase : Phase)
  | power (power : Option ℚ) (phase : Phase)
  | current (current : Option ℚ) (phase : Phase)
  | credit (kwhCreditAvailable : Option ℚ) (creditLevel : Option Nat) (isOn : Bool)
  | report (report : ReadReport)
  | date (day month year : String)
  | time (hour minute second : String)
  deriving DecidableEq

inductive ResponseData
  | powerLimit (powerLimit : Nat)
  | tokenAccepted (tokenAccepted : Bool)
  | onOffToggleAccepted (onOffToggleAccepted : Bool)
  | reading (r : Reading)
  deriving DecidableEq

structure DecodedLorawanCalinEvent where
  status : ExecutionStatus
  data : ResponseData
  failureContext : Option FailureContext := none
  unsolicitedEventType : Option CommandType := none
  deriving DecidableEq

section Parsers

def decodeDlms (bytes : List Byte) : ResponseData :=
  .powerLimit (hexArrayToNumber (bytes.drop (bytes.length - 4)))

/-- A BCD field at these positions, divided by its scale. -/
def bcdField (bytes : List Byte) (i j : Nat) (scale : ℚ) : Option ℚ :=
  (bcdToInteger ((slice bytes i j).map subtract33H)).map fun n : Nat => (n : ℚ) / scale

def decodeReadVoltage (phase : Phase) (bytes : List Byte) : Reading :=
  .voltage (bcdField bytes 13 16 100) phase

def decodeReadPower (phase : Phase) (bytes : List Byte) : Reading :=
  .power (bcdField bytes 12 16 10) phase

def decodeReadCurrent (phase : Phase) (bytes : List Byte) : Reading :=
  .current (bcdField bytes 12 14 100) phase

def decodeReadCredit (bytes : List Byte) : Reading :=
  .credit (bcdField bytes 12 16 100) (bytes[16]?.map subtract33H)
    (bytes[17]?.map subtract33H = some 0)

/-- `!!(x & (1 << i))`, where `NaN` has no bit set. -/
def flag (x : Option Nat) (i : Nat) : Bool :=
  (x.getD 0).testBit i

def meterStatusOf (meterStatus : Option Nat) : MeterStatus where
  relayOpen := flag meterStatus 0
  batteryLow := flag meterStatus 1
  magneticInterference := flag meterStatus 2
  terminalCoverOpen := flag meterStatus 3
  coverOpen := flag meterStatus 4
  source2Activated := flag meterStatus 5
  currentReverse := flag meterStatus 6
  currentUnbalance := flag meterStatus 7

def decodeReadReport (bytes : List Byte) : Reading :=
  .report {
    freezeTime :=
      "20" ++ parseDateTimeByte bytes[17]? ++ "-" ++ parseDateTimeByte bytes[16]? ++ "-" ++
        parseDateTimeByte bytes[15]? ++ " " ++ parseDateTimeByte bytes[14]? ++ ":" ++
        parseDateTimeByte bytes[13]?
    consumptionSource1 := reverseAndCombine (slice bytes 18 22) / 100
    purchaseRemainSource1 := processFloatFromBytes (slice bytes 22 26)
    consumptionSource2 := reverseAndCombine (slice bytes 26 30) / 100
    purchaseRemainSource2 := processFloatFromBytes (slice bytes 30 34)
    intervalDemand := reverseAndCombine (slice bytes 34 38)
    voltage := reverseAndCombine (slice bytes 38 40) / 10
    current := reverseAndCombine (slice bytes 40 44) / 1000
    meterStatus := meterStatusOf (bytes[44]?.map subtract33H) }

def decodeReadDate (bytes : List Byte) : Reading :=
  .date (parseDateTimeByte bytes[13]?) (parseDateTimeByte bytes[14]?)
    ("20" ++ parseDateTimeByte bytes[15]?)

def decodeReadTime (bytes : List Byte) : Reading :=
  .time (parseDateTimeByte bytes[14]?) (parseDateTimeByte bytes[13]?)
    (parseDateTimeByte bytes[12]?)

inductive Parser
  | readVoltage (phase : Phase) | readPower (phase : Phase) | readCurrent (phase : Phase)
  | readCredit | readReport | readDate | readTime
  deriving DecidableEq

def Parser.decode (parser : Parser) : List Byte → Reading :=
  match parser with
  | .readVoltage phase => decodeReadVoltage phase
  | .readPower phase => decodeReadPower phase
  | .readCurrent phase => decodeReadCurrent phase
  | .readCredit => decodeReadCredit
  | .readReport => decodeReadReport
  | .readDate => decodeReadDate
  | .readTime => decodeReadTime

/-- `DATA_PROCESSOR_MAP`, by the number its keys spell in hexadecimal. -/
def DATA_PROCESSOR_MAP (dataIdentifier : Int) : Option Parser :=
  match dataIdentifier with
  | 0xB611 => some (.readVoltage .A)
  | 0xB612 => some (.readVoltage .B)
  | 0xB613 => some (.readVoltage .C)
  | 0xB630 => some (.readPower .A)
  | 0xB631 => some (.readPower .B)
  | 0xB632 => some (.readPower .C)
  | 0xB621 => some (.readCurrent .A)
  | 0xB622 => some (.readCurrent .B)
  | 0xB623 => some (.readCurrent .C)
  | 0xE421 => some .readCredit
  | 0xC111 => some .readReport
  | 0xC010 => some .readDate
  | 0xC011 => some .readTime
  | _ => none

end Parsers

/-- The sum of the bytes, of which a frame carries the last eight bits. -/
def checksum (bytes : List Byte) : Nat :=
  (bytes.map UInt8.toNat).sum % 256

def dataIdentifier (bytes : List Byte) : Int :=
  reverseAndCombine (slice bytes 10 12)

def headersMatch (bytes : List Byte) : Prop :=
  bytes[0]? = some HEADER_BYTE ∧ bytes[7]? = some HEADER_BYTE ∧
    bytes[bytes.length - 1]? = some END_BYTE

instance (bytes : List Byte) : Decidable (headersMatch bytes) :=
  inferInstanceAs (Decidable (_ ∧ _))

def checksumMatches (bytes : List Byte) : Prop :=
  (bytes[bytes.length - 2]?).map UInt8.toNat = some (checksum (slice bytes 0 (bytes.length - 2)))

instance (bytes : List Byte) : Decidable (checksumMatches bytes) :=
  inferInstanceAs (Decidable (_ = _))

/-- The frame is as long as its size byte declares. -/
def holdsDeclared (bytes : List Byte) : Prop :=
  12 + (bytes[9]?.map UInt8.toNat).getD 0 ≤ bytes.length

instance (bytes : List Byte) : Decidable (holdsDeclared bytes) :=
  inferInstanceAs (Decidable (_ ≤ _))

def readingEvent (operation : ControlCode) (parser : Parser) (bytes : List Byte) :
    DecodedLorawanCalinEvent :=
  let data := .reading (parser.decode bytes)
  if dataIdentifier bytes = 0xC111 then
    { status := .EXECUTION_SUCCESS, data := data, unsolicitedEventType := some .readReport }
  else if operation = .READING_SUCCESS then { status := .EXECUTION_SUCCESS, data := data }
  else {
    status := .EXECUTION_FAILURE
    data := data
    failureContext := some
      { reason := "Delivery was successful but the readout was not (successfully) executed" } }

def decodeOperation (operation : ControlCode) (bytes : List Byte) :
    Option DecodedLorawanCalinEvent :=
  match operation with
  | .SEND_TOKEN_SUCCESS => some { status := .EXECUTION_SUCCESS, data := .tokenAccepted true }
  | .SEND_TOKEN_FAILURE => some {
      status := .EXECUTION_FAILURE
      data := .tokenAccepted false
      failureContext := some
        { reason := "Delivery was successful but the token was not accepted" } }
  | .WRITING_SUCCESS =>
    some { status := .EXECUTION_SUCCESS, data := .onOffToggleAccepted true }
  | .WRITING_FAILURE => some {
      status := .EXECUTION_FAILURE
      data := .onOffToggleAccepted false
      failureContext := some
        { reason :=
            "Delivery was successful but the command was not (successfully) executed" } }
  | operation =>
    match DATA_PROCESSOR_MAP (dataIdentifier bytes) with
    | none => none
    | some parser =>
      if holdsDeclared bytes then some (readingEvent operation parser bytes) else none

/-- The frame is given by its bytes, decoded from base64. -/
def decodeResponseData (bytes : List Byte) : Option DecodedLorawanCalinEvent :=
  if bytes[0]? = some 0x00 then
    some { status := .EXECUTION_SUCCESS, data := decodeDlms bytes }
  else if headersMatch bytes then
    match CONTROL_CODE_MAP bytes[8]? with
    | none => none
    | some operation =>
      if checksumMatches bytes then decodeOperation operation bytes else none
  else none

end Calin

end DeviceMessaging
