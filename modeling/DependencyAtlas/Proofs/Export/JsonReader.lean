import DependencyAtlas.Text.Basic

namespace DependencyAtlas

/-- What a JSON text stands for. The fields of an object stand in the order of the text. -/
inductive JsonDocument where
  | null
  | truth (b : Bool)
  | integer (n : Int)
  | decimal (mantissa exponent : Int)
  | text (t : Text)
  | array (items : List JsonDocument)
  | object (fields : List (Text × JsonDocument))

namespace JsonDocument

def isSpace (c : Char) : Bool :=
  c == ' ' || c == '\n' || c == '\r' || c == '\t'

def skip (t : Text) : Text :=
  t.dropWhile isSpace

def hexValue? (c : Char) : Option Nat :=
  if c.isDigit then some (c.toNat - '0'.toNat)
  else if 'a' ≤ c ∧ c ≤ 'f' then some (c.toNat - 'a'.toNat + 10)
  else if 'A' ≤ c ∧ c ≤ 'F' then some (c.toNat - 'A'.toNat + 10)
  else none

def hexNumber? (digits : Text) : Option Nat :=
  digits.foldlM (fun n c => (hexValue? c).map fun d => 16 * n + d) 0

def shortEscape? (c : Char) : Option Char :=
  match c with
  | '"' | '\\' | '/' => some c
  | 'b' => some '\x08'
  | 'f' => some '\x0c'
  | 'n' => some '\n'
  | 'r' => some '\r'
  | 't' => some '\t'
  | _ => none

def unitsOf (c : Char) : List Nat :=
  if c.toNat < 0x10000 then [c.toNat]
  else [0xD800 + (c.toNat - 0x10000) / 0x400, 0xDC00 + (c.toNat - 0x10000) % 0x400]

/-- The text with certain code units, pairs of surrogates joined; there is none if a surrogate
stands alone. -/
def joinUnits : List Nat → Option Text
  | [] => some []
  | [u] => if u < 0xD800 ∨ 0xDFFF < u then some [Char.ofNat u] else none
  | u :: v :: us =>
    if u < 0xD800 ∨ 0xDFFF < u then (joinUnits (v :: us)).map (Char.ofNat u :: ·)
    else if u < 0xDC00 ∧ 0xDC00 ≤ v ∧ v ≤ 0xDFFF then
      (joinUnits us).map (Char.ofNat (0x10000 + (u - 0xD800) * 0x400 + (v - 0xDC00)) :: ·)
    else none

/-- The code units up to the quote that ends a text, and the rest behind it. Control characters have
to be escaped. -/
def readUnits : Text → Option (List Nat × Text)
  | [] => none
  | c :: t =>
    if c = '"' then some ([], t)
    else if c = '\\' then
      match t with
      | [] => none
      | 'u' :: h₁ :: h₂ :: h₃ :: h₄ :: t =>
        (hexNumber? [h₁, h₂, h₃, h₄]).bind fun u => (readUnits t).map fun r => (u :: r.1, r.2)
      | e :: t => (shortEscape? e).bind fun d => (readUnits t).map fun r => (unitsOf d ++ r.1, r.2)
    else if c.toNat < 0x20 then none
    else (readUnits t).map fun r => (unitsOf c ++ r.1, r.2)

def readText (t : Text) : Option (Text × Text) :=
  (readUnits t).bind fun r => (joinUnits r.1).map fun s => (s, r.2)

def readDigits (t : Text) : Option (Text × Text) :=
  let digits := t.takeWhile Char.isDigit
  if digits = [] then none else some (digits, t.dropWhile Char.isDigit)

def readWhole (t : Text) : Option (Text × Text) :=
  (readDigits t).bind fun r => if r.1.head? = some '0' ∧ r.1 ≠ ['0'] then none else some r

def readDecimals : Text → Option (Option Text × Text)
  | [] => some (none, [])
  | c :: t => if c = '.' then (readDigits t).map fun r => (some r.1, r.2) else some (none, c :: t)

def digitsValue (digits : Text) : Int :=
  Nat.ofDigitChars 10 digits 0

def readExponent : Text → Option (Option Int × Text)
  | [] => some (none, [])
  | c :: t =>
    if c = 'e' ∨ c = 'E' then
      match t with
      | '-' :: t => (readDigits t).map fun r => (some (-digitsValue r.1), r.2)
      | '+' :: t => (readDigits t).map fun r => (some (digitsValue r.1), r.2)
      | t => (readDigits t).map fun r => (some (digitsValue r.1), r.2)
    else some (none, c :: t)

def readUnsigned (sign : Int) (t : Text) : Option (JsonDocument × Text) :=
  (readWhole t).bind fun (whole, t) =>
    (readDecimals t).bind fun (decimals, t) =>
      (readExponent t).map fun (exponent, t) =>
        if decimals = none ∧ exponent = none then (.integer (sign * digitsValue whole), t)
        else
          (.decimal (sign * digitsValue (whole ++ decimals.getD []))
            (exponent.getD 0 - (decimals.getD []).length), t)

def readNumber : Text → Option (JsonDocument × Text)
  | [] => none
  | c :: t => if c = '-' then readUnsigned (-1) t else readUnsigned 1 (c :: t)

def words : List (String × JsonDocument) :=
  [("null", null), ("true", truth true), ("false", truth false)]

def readWord (t : Text) : Option (JsonDocument × Text) :=
  (words.find? fun w => w.1.toList.isPrefixOf t).map fun w => (w.2, t.drop w.1.length)

def readName (t : Text) : Option (Text × Text) :=
  match skip t with
  | '"' :: t =>
    (readText t).bind fun (name, t) =>
      match skip t with
      | ':' :: t => some (name, t)
      | _ => none
  | _ => none

mutual

/-- Reads a value. Each bracket and each comma on the way takes one of `fuel`. -/
def readValue : (fuel : Nat) → Text → Option (JsonDocument × Text)
  | 0, _ => none
  | n + 1, t =>
    match skip t with
    | [] => none
    | c :: t =>
      if c = '"' then (readText t).map fun r => (.text r.1, r.2)
      else if c = '[' then
        match skip t with
        | ']' :: t => some (.array [], t)
        | t =>
          (readValue n t).bind fun (v, t) => (readItems n t).map fun (vs,
            t) => (.array (v :: vs), t)
      else if c = '\x7b' then
        match skip t with
        | '\x7d' :: t => some (.object [], t)
        | t =>
          (readName t).bind fun (name, t) =>
            (readValue n t).bind fun (v, t) =>
              (readFields n t).map fun (fields, t) => (.object ((name, v) :: fields), t)
      else readWord (c :: t) <|> readNumber (c :: t)

def readItems : (fuel : Nat) → Text → Option (List JsonDocument × Text)
  | 0, _ => none
  | n + 1, t =>
    match skip t with
    | ']' :: t => some ([], t)
    | ',' :: t => (readValue n t).bind fun (v, t) => (readItems n t).map fun (vs, t) => (v :: vs, t)
    | _ => none

def readFields : (fuel : Nat) → Text → Option (List (Text × JsonDocument) × Text)
  | 0, _ => none
  | n + 1, t =>
    match skip t with
    | '\x7d' :: t => some ([], t)
    | ',' :: t =>
      (readName t).bind fun (name, t) =>
        (readValue n t).bind fun (v, t) => (readFields n t).map fun (fields,
          t) => ((name, v) :: fields, t)
    | _ => none

end

/-- What a whole text stands for. -/
def ofText? (t : Text) : Option JsonDocument :=
  (readValue (t.length + 1) t).bind fun (v, rest) => if skip rest = [] then some v else none

end JsonDocument

end DependencyAtlas
