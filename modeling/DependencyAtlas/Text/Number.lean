import DependencyAtlas.Pattern.Basic

namespace DependencyAtlas.Text

def maxDigits : Nat := 4300

def digitsFrom : (afterDigit : Bool) → Text → Option (List Nat)
  | afterDigit, [] => if afterDigit then some [] else none
  | afterDigit, c :: t =>
    if c = '_' then if afterDigit then digitsFrom false t else none
    else (CharItem.digitValue? c).bind fun d => (digitsFrom true t).map (d :: ·)

def toNat? (t : Text) : Option Nat :=
  (digitsFrom false t).bind fun ds =>
    if ds.length ≤ maxDigits then some (ds.foldl (fun n d => 10 * n + d) 0) else none

def isNumberBlank (c : Char) : Bool :=
  isBlank c && !inRanges [(0x1C, 0x1F)] c

def trimNumber (t : Text) : Text :=
  dropEndWhile isNumberBlank (t.dropWhile isNumberBlank)

def toInt? (t : Text) : Option Int :=
  match trimNumber t with
  | '-' :: u => (toNat? u).map fun n => -(n : Int)
  | '+' :: u => (toNat? u).map fun n => (n : Int)
  | u => (toNat? u).map fun n => (n : Int)

inductive NumberFault where
  | unreadable
  | tooLong
  deriving DecidableEq, Repr

/-- The number that a text in its simplest form stands for: at most a minus sign before digits, of
which the first is a zero only if it is the only one. A text that starts with too long a number is
not read any further. -/
def simpleInt (t : Text) : Except NumberFault Int :=
  let digits := if t.head? = some '-' then t.tail else t
  let run := digits.takeWhile Char.isDigit
  let startsWithZero := run.head? = some '0'
  if ¬ startsWithZero ∧ maxDigits < run.length + (t.length - digits.length) then .error .tooLong
  else if run = [] ∨ run ≠ digits ∨ startsWithZero ∧ run ≠ ['0'] then .error .unreadable
  else
    let n : Int := run.foldl (fun n d => 10 * n + (d.toNat - 48)) 0
    .ok (if t.head? = some '-' then -n else n)

/-- What is left behind the zeros that come after `last`, and the underscores among them, from a
digit or a minus sign on. The last of them stays if a point follows, or nothing. -/
def dropZerosAfter : (last : Char) → Text → Option Text
  | last, [] => some [last]
  | last, c :: t =>
    if c = '0' ∨ c = '_' then dropZerosAfter c t
    else if c = '-' ∨ c.isDigit then some (c :: t)
    else if c = '.' then some (last :: c :: t)
    else none

def dropZeros : Text → Option Text
  | [] => none
  | c :: t => if c = '0' then dropZerosAfter c t else if c.isDigit then some (c :: t) else none

def dropDecimals (t : Text) : Text :=
  match cutAt (· == '.') t with
  | none => t
  | some (whole, decimals) => if decimals ≠ [] ∧ decimals.all (· == '0') then whole else t

def dropUnderscores (t : Text) : Text :=
  if t.head? = some '_' ∨ t.getLast? = some '_' ∨ hasPart ['_', '_'] t then t
  else t.filter (· ≠ '_')

/-- The simplest form of a number: without blanks around it, plus sign, leading zeros, decimals and
underscores. -/
def simplify? (t : Text) : Option Text :=
  let strip := fun u => (dropZeros u).map fun v => dropUnderscores (dropDecimals v)
  match trimNumber t with
  | '-' :: u => (strip u).map ('-' :: ·)
  | '+' :: u => strip u
  | u => strip u

def plainInt (t : Text) : Except NumberFault Int :=
  match simpleInt t with
  | .error .unreadable => (simplify? t).elim (.error .unreadable) simpleInt
  | r => r

end DependencyAtlas.Text
