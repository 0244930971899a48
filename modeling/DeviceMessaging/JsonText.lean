import Mathlib.Data.List.Basic
import Mathlib.Data.Nat.Notation

namespace JsonText

/-- A JSON value over a type of numbers; strings are texts of Unicode characters. -/
inductive Json (ν : Type) : Type
  | null
  | bool (b : Bool)
  | num (x : ν)
  | str (s : List Char)
  | arr (items : List (Json ν))
  | obj (members : List (List Char × Json ν))

/-- The character may go on a number. -/
def continuesNumber (c : Char) : Bool :=
  c.isDigit || c = '.' || c = 'e' || c = 'E'

/-- The character may begin a number. -/
def beginsNumber (c : Char) : Bool :=
  c.isDigit || c = '-'

/-- A way to write numbers, and to read the longest one a text begins with. -/
structure NumberFormat (ν : Type) where
  print : ν → List Char
  scan : List Char → Option (ν × List Char)

/-- What was written is read back, whatever follows that is no part of a number. -/
structure NumberFormat.Faithful {ν : Type} (F : NumberFormat ν) (x : ν) : Prop where
  begins : ∃ c cs, F.print x = c :: cs ∧ beginsNumber c = true
  scan_print : ∀ rest : List Char, (∀ c ∈ rest.head?, continuesNumber c = false) →
    F.scan (F.print x ++ rest) = some (x, rest)

variable {ν : Type}

section Strings

def hexDigit (n : Nat) : Char :=
  if n < 10 then Char.ofNat (48 + n) else Char.ofNat (87 + n)

/-- The characters that stand behind a backslash for themselves or for a control
character. -/
def shortEscapes : List (Char × Char) :=
  [('\"', '\"'), ('\\', '\\'), ('b', Char.ofNat 8), ('t', '\t'), ('n', '\n'), ('f', Char.ofNat 12),
    ('r', '\r')]

/-- One character of a string: as it is, or escaped. -/
def printChar (c : Char) : List Char :=
  match shortEscapes.find? fun e => e.2 = c with
  | some e => ['\\', e.1]
  | none =>
    if c.toNat < 32 then ['\\', 'u', '0', '0', hexDigit (c.toNat / 16), hexDigit (c.toNat % 16)]
    else [c]

def printString (s : List Char) : List Char :=
  '\"' :: s.flatMap printChar ++ ['\"']

def hexValue (c : Char) : Option Nat :=
  if c.isDigit then some (c.toNat - 48)
  else if 'a' ≤ c ∧ c ≤ 'f' then some (c.toNat - 87)
  else if 'A' ≤ c ∧ c ≤ 'F' then some (c.toNat - 55)
  else none

/-- The code unit of four hexadecimal digits. -/
def codeUnit (a b c d : Char) : Option Nat :=
  (hexValue a).bind fun a => (hexValue b).bind fun b => (hexValue c).bind fun c =>
    (hexValue d).map fun d => ((a * 16 + b) * 16 + c) * 16 + d

/-- The escapes a reader knows besides: a slash may be escaped. -/
def readEscape (c : Char) : Option Char :=
  (('/', '/') :: shortEscapes).lookup c

/-- The character of a surrogate pair. -/
def surrogatePair (high low : Nat) : Char :=
  Char.ofNat (65536 + (high - 55296) * 1024 + (low - 56320))

def prepend {α : Type} (a : α) (read : Option (List α × List Char)) :
    Option (List α × List Char) :=
  read.map fun e => (a :: e.1, e.2)

/-- The code units of a string from behind its opening quote to its closing one. -/
def readUnits (cs : List Char) : Option (List Nat × List Char) :=
  match cs with
  | [] => none
  | c :: cs =>
    if c = '\"' then some ([], cs)
    else if c = '\\' then
      match cs with
      | 'u' :: h₁ :: h₂ :: h₃ :: h₄ :: cs =>
        (codeUnit h₁ h₂ h₃ h₄).bind fun u => prepend u (readUnits cs)
      | e :: cs => (readEscape e).bind fun c => prepend c.toNat (readUnits cs)
      | [] => none
    else if c.toNat < 32 then none
    else prepend c.toNat (readUnits cs)

def isSurrogate (u : Nat) : Bool :=
  55296 ≤ u ∧ u < 57344

/-- The characters of code units. A surrogate without its partner is no character
and becomes the replacement character. -/
def joinUnits (us : List Nat) : List Char :=
  match us with
  | [] => []
  | u :: us =>
    if isSurrogate u then
      match us with
      | [] => [Char.ofNat 65533]
      | l :: rest =>
        if u < 56320 ∧ 56320 ≤ l ∧ isSurrogate l then surrogatePair u l :: joinUnits rest
        else Char.ofNat 65533 :: joinUnits (l :: rest)
    else Char.ofNat u :: joinUnits us

def readString (cs : List Char) : Option (List Char × List Char) :=
  (readUnits cs).map fun e => (joinUnits e.1, e.2)

theorem joinUnits_chars (s : List Char) : joinUnits (s.map Char.toNat) = s := by
  induction s with
  | nil => rfl
  | cons c s ih =>
    have hc : isSurrogate c.toNat = false := by
      have hv := c.valid
      unfold isSurrogate
      simp only [decide_eq_false_iff_not, not_and, Nat.not_lt]
      rcases hv with hv | ⟨hv, -⟩
      · have hv : c.toNat < 55296 := hv
        omega
      · have hv : 57343 < c.toNat := hv
        omega
    rw [List.map_cons, joinUnits.eq_def]
    simp only [hc, Bool.false_eq_true, if_false, ih, Char.ofNat_toNat]

end Strings

section Values

mutual

/-- A value without spaces, its members in their order. -/
def print (F : NumberFormat ν) (j : Json ν) : List Char :=
  match j with
  | .null => ['n', 'u', 'l', 'l']
  | .bool true => ['t', 'r', 'u', 'e']
  | .bool false => ['f', 'a', 'l', 's', 'e']
  | .num x => F.print x
  | .str s => printString s
  | .arr [] => ['[', ']']
  | .arr (j :: js) => '[' :: print F j ++ printItems F js
  | .obj [] => ['\x7b', '\x7d']
  | .obj ((k, j) :: ms) => '\x7b' :: printString k ++ ':' :: print F j ++ printMembers F ms

/-- The items of an array behind the first, with its closing bracket. -/
def printItems (F : NumberFormat ν) (js : List (Json ν)) : List Char :=
  match js with
  | [] => [']']
  | j :: js => ',' :: print F j ++ printItems F js

/-- The members of an object behind the first, with its closing brace. -/
def printMembers (F : NumberFormat ν) (ms : List (List Char × Json ν)) : List Char :=
  match ms with
  | [] => ['\x7d']
  | (k, j) :: ms => ',' :: printString k ++ ':' :: print F j ++ printMembers F ms

end

def isSpace (c : Char) : Bool :=
  c = ' ' || c = '\t' || c = '\n' || c = '\r'

def skipSpace (cs : List Char) : List Char :=
  cs.dropWhile isSpace

def readKeyword (cs : List Char) : Option (Json ν × List Char) :=
  match cs with
  | 'n' :: 'u' :: 'l' :: 'l' :: rest => some (.null, rest)
  | 't' :: 'r' :: 'u' :: 'e' :: rest => some (.bool true, rest)
  | 'f' :: 'a' :: 'l' :: 's' :: 'e' :: rest => some (.bool false, rest)
  | _ => none

/-- The expected character, after any space. -/
def expect (c : Char) (cs : List Char) : Option (List Char) :=
  match skipSpace cs with
  | [] => none
  | d :: rest => if d = c then some rest else none

/-- Set a member: in its place if the key is there, else behind the others. -/
def setMember {α : Type} (ms : List (List Char × α)) (k : List Char) (a : α) :
    List (List Char × α) :=
  match ms with
  | [] => [(k, a)]
  | e :: ms => if e.1 = k then (k, a) :: ms else e :: setMember ms k a

/-- Of members with the same key the last one counts. -/
def keepLast {α : Type} (ms : List (List Char × α)) : List (List Char × α) :=
  ms.foldl (fun kept e => setMember kept e.1 e.2) []

mutual

/-- The value a text begins with, read to a depth of `n`. -/
def readValue (F : NumberFormat ν) (n : Nat) (cs : List Char) : Option (Json ν × List Char) :=
  match n with
  | 0 => none
  | n + 1 =>
    match skipSpace cs with
    | [] => none
    | c :: rest =>
      if c = '\"' then (readString rest).map fun e => (.str e.1, e.2)
      else if c = '[' then
        match expect ']' rest with
        | some rest => some (.arr [], rest)
        | none => (readValue F n rest).bind fun e =>
            (readItems F n e.2).map fun t => (.arr (e.1 :: t.1), t.2)
      else if c = '\x7b' then
        match expect '\x7d' rest with
        | some rest => some (.obj [], rest)
        | none => (readMember F n rest).bind fun e =>
            (readMembers F n e.2).map fun t => (.obj (keepLast (e.1 :: t.1)), t.2)
      else if beginsNumber c then (F.scan (c :: rest)).map fun e => (.num e.1, e.2)
      else readKeyword (c :: rest)

def readItems (F : NumberFormat ν) (n : Nat) (cs : List Char) :
    Option (List (Json ν) × List Char) :=
  match n with
  | 0 => none
  | n + 1 =>
    match expect ']' cs with
    | some rest => some ([], rest)
    | none => (expect ',' cs).bind fun rest => (readValue F n rest).bind fun e =>
        (readItems F n e.2).map fun t => (e.1 :: t.1, t.2)

def readMember (F : NumberFormat ν) (n : Nat) (cs : List Char) :
    Option ((List Char × Json ν) × List Char) :=
  match n with
  | 0 => none
  | n + 1 => (expect '\"' cs).bind fun rest => (readString rest).bind fun k =>
      (expect ':' k.2).bind fun rest =>
        (readValue F n rest).map fun e => ((k.1, e.1), e.2)

def readMembers (F : NumberFormat ν) (n : Nat) (cs : List Char) :
    Option (List (List Char × Json ν) × List Char) :=
  match n with
  | 0 => none
  | n + 1 =>
    match expect '\x7d' cs with
    | some rest => some ([], rest)
    | none => (expect ',' cs).bind fun rest => (readMember F n rest).bind fun e =>
        (readMembers F n e.2).map fun t => (e.1 :: t.1, t.2)

end

/-- The value a text is, if it is one. -/
def parse (F : NumberFormat ν) (cs : List Char) : Option (Json ν) :=
  match readValue F (cs.length + 1) cs with
  | none => none
  | some (j, rest) => if skipSpace rest = [] then some j else none

/-- Its numbers are read back as they are written, and its keys are distinct. -/
inductive Proper (F : NumberFormat ν) : Json ν → Prop
  | null : Proper F .null
  | bool (b : Bool) : Proper F (.bool b)
  | num {x : ν} (hx : F.Faithful x) : Proper F (.num x)
  | str (s : List Char) : Proper F (.str s)
  | arr {js : List (Json ν)} (hj : ∀ j ∈ js, Proper F j) : Proper F (.arr js)
  | obj {ms : List (List Char × Json ν)} (hk : (ms.map Prod.fst).Nodup)
    (hj : ∀ e ∈ ms, Proper F e.2) : Proper F (.obj ms)

variable {F : NumberFormat ν}

/-- Nothing that follows goes on a number. -/
def Ended (rest : List Char) : Prop :=
  ∀ c ∈ rest.head?, continuesNumber c = false

end Values

end JsonText
