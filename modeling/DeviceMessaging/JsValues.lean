import DeviceMessaging.StoredFields
import DeviceMessaging.VendorText

namespace DeviceMessaging

open JsonText

/-- What JavaScript code that expects values of a type throws on others. -/
inductive Thrown
  | typeError
  deriving DecidableEq

abbrev Js (α : Type) := Except Thrown α

abbrev Members := List (List Char × JsValue)

/-- A member of an object; `none` is `undefined`. -/
def member (members : Members) (name : String) : Option JsValue :=
  (members.find? fun m => m.1 = name.toList).map Prod.snd

/-- `value.name` of a name that no prototype knows. -/
def property (value : JsValue) (name : String) : Js (Option JsValue) :=
  match value with
  | .null => throw .typeError
  | .obj members => pure (member members name)
  | _ => pure none

def isTruthy (value : Option JsValue) : Bool :=
  match value with
  | none | some .null => false
  | some (.bool b) => b
  | some (.num x) => x.significand ≠ 0
  | some (.str s) => s ≠ []
  | some (.arr _) | some (.obj _) => true

/-- `===`; arrays and objects are those of different places. -/
def strictEquals (x y : Option JsValue) : Bool :=
  match x, y with
  | none, none | some .null, some .null => true
  | some (.bool b), some (.bool c) => b = c
  | some (.num m), some (.num n) => m = n
  | some (.str s), some (.str t) => s = t
  | _, _ => false

section Texts

/-- The UTF-16 code units of a text. -/
def codeUnits (text : List Char) : List Nat :=
  text.flatMap fun c =>
    if c.toNat < 65536 then [c.toNat]
    else [55296 + (c.toNat - 65536) / 1024, 56320 + (c.toNat - 65536) % 1024]

/-- `text.length`. -/
def textLength (text : List Char) : Nat :=
  (codeUnits text).length

/-- `text.substring(start)`. -/
def substring (text : List Char) (start : Nat) : List Char :=
  joinUnits ((codeUnits text).drop start)

end Texts

section Conversions

mutual

/-- `String(value)`. An object is no text unless it has the inherited `toString`. -/
def toText (value : JsValue) : Js (List Char) :=
  match value with
  | .null => pure "null".toList
  | .bool b => pure (if b then "true".toList else "false".toList)
  | .num x => pure x.text
  | .str s => pure s
  | .arr items => (itemTexts items).map fun texts => [','].intercalate texts
  | .obj members =>
    if (member members "toString").isSome then throw .typeError
    else pure "[object Object]".toList

/-- The texts that `join` puts together. -/
def itemTexts (items : List JsValue) : Js (List (List Char)) :=
  match items with
  | [] => pure []
  | .null :: items => (itemTexts items).map fun texts => [] :: texts
  | item :: items => do
    let text ← toText item
    let texts ← itemTexts items
    return text :: texts

end

/-- `Number(text)`; `none` is `NaN`. -/
def textToNumber (text : List Char) : Option ℚ :=
  if trimText text = [] then some 0 else numberText (trimText text)

/-- `Number(value)`. -/
def toNumber (value : Option JsValue) : Js (Option ℚ) :=
  match value with
  | none => pure none
  | some .null => pure (some 0)
  | some (.bool b) => pure (some (if b then 1 else 0))
  | some (.num x) => pure (some x.value)
  | some value => (toText value).map textToNumber

/-- `x - y` as a sort reads it, where `NaN` counts as `0`. -/
def difference (x y : Option JsValue) : Js ℚ := do
  match ← toNumber x, ← toNumber y with
  | some m, some n => return m - n
  | _, _ => return 0

end Conversions

end DeviceMessaging
