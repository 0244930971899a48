import DeviceMessaging.MessageTypes

namespace DeviceMessaging

/-- The Crockford alphabet of a ULID. -/
def ulidEncoding : List Char :=
  "0123456789ABCDEFGHJKMNPQRSTVWXYZ".toList

def decodeUlidDigits (carry : Nat) (digits : List Char) : Option Nat :=
  match digits with
  | [] => some carry
  | c :: rest =>
    match ulidEncoding.findIdx? (· = c) with
    | none => none
    | some i => decodeUlidDigits (carry * 32 + i) rest

/-- The time in a ULID: its first ten digits, at most 48 bits of them. -/
def decodeUlidTime (id : MessageId) : Option Nat :=
  if id.length ≠ 26 then none
  else (decodeUlidDigits 0 (id.toList.take 10)).filter (· < 2 ^ 48)

example : decodeUlidTime "01ARZ3NDEKTSV4RRFFQ69G5FAV" = some 1469922850259 := by decide

end DeviceMessaging
