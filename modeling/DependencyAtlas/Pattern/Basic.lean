import DependencyAtlas.Text.Word

namespace DependencyAtlas

/-- A member of a set of characters. -/
inductive CharItem where
  | char (c : Char)
  | range (first last : Char)
  | blank
  | word
  | digit
  | notBlank
  | notWord
  | notDigit
  deriving DecidableEq, Repr

namespace CharItem

/-- The decimal digits beyond ASCII stand in runs of ten; these are the zeros that the runs start
with. -/
def zeros : List Nat := [
    0x30, 0x660, 0x6F0, 0x7C0, 0x966, 0x9E6, 0xA66, 0xAE6, 0xB66, 0xBE6, 0xC66, 0xCE6, 0xD66, 0xDE6,
    0xE50, 0xED0, 0xF20, 0x1040, 0x1090, 0x17E0, 0x1810, 0x1946, 0x19D0, 0x1A80, 0x1A90, 0x1B50,
    0x1BB0, 0x1C40, 0x1C50, 0xA620, 0xA8D0, 0xA900, 0xA9D0, 0xA9F0, 0xAA50, 0xABF0, 0xFF10, 0x104A0,
    0x10D30, 0x11066, 0x110F0, 0x11136, 0x111D0, 0x112F0, 0x11450, 0x114D0, 0x11650, 0x116C0,
    0x11730, 0x118E0, 0x11950, 0x11C50, 0x11D50, 0x11DA0, 0x16A60, 0x16AC0, 0x16B50, 0x1D7CE,
    0x1D7D8, 0x1D7E2, 0x1D7EC, 0x1D7F6, 0x1E140, 0x1E2F0, 0x1E950, 0x1FBF0]

def digitValue? (c : Char) : Option Nat :=
  zeros.findSome? fun z => if z ≤ c.toNat ∧ c.toNat < z + 10 then some (c.toNat - z) else none

def holds (c : Char) : CharItem → Bool
  | .char d => c == d
  | .range first last => first.toNat ≤ c.toNat && c.toNat ≤ last.toNat
  | .blank => Text.isBlank c
  | .word => Text.isWord c
  | .digit => (digitValue? c).isSome
  | .notBlank => !Text.isBlank c
  | .notWord => !Text.isWord c
  | .notDigit => (digitValue? c).isNone

end CharItem

/-- A set of characters: those that some item holds of, or the others. -/
structure CharSet where
  items : List CharItem
  negated : Bool := false
  deriving DecidableEq, Repr

namespace CharSet

def contains (s : CharSet) (c : Char) : Bool :=
  (s.items.any fun i => i.holds c) != s.negated

end CharSet

/-- A pattern. Repetition and choice have an order of preference: what stands first, or the longer,
or for a lazy repetition the shorter, is tried first. -/
inductive Pattern where
  /-- Nothing, at any place. -/
  | empty
  /-- One character of a set. -/
  | one (set : CharSet)
  /-- The start of the text. -/
  | start
  /-- The end of the text, or the place before a line feed that ends it. -/
  | finish
  /-- The end of the text. -/
  | textEnd
  /-- A place between a word character and none. -/
  | wordEdge
  /-- The opposite of `wordEdge`, except in the empty text. -/
  | noWordEdge
  | seq (p q : Pattern)
  | either (p q : Pattern)
  | many (greedy : Bool) (p : Pattern)
  /-- `least` rounds, and up to `more` further ones. -/
  | times (greedy : Bool) (least more : Nat) (p : Pattern)
  | capture (name : Text) (p : Pattern)
  deriving DecidableEq, Repr

namespace Pattern

instance : Append Pattern := ⟨seq⟩

instance : OrOp Pattern := ⟨either⟩

def exactly (t : Text) : Pattern :=
  t.foldr (fun c p => one ⟨[.char c], false⟩ ++ p) empty

/-- The text of a word or sign. -/
def text (s : String) : Pattern :=
  exactly s.toList

def anyOf : List Pattern → Pattern
  | [] => one ⟨[], false⟩
  | [p] => p
  | p :: ps => p ||| anyOf ps

def anyWord (ws : List String) : Pattern :=
  anyOf (ws.map text)

def opt (p : Pattern) : Pattern :=
  p ||| empty

def many0 (p : Pattern) : Pattern :=
  many true p

def many1 (p : Pattern) : Pattern :=
  p ++ many true p

def few0 (p : Pattern) : Pattern :=
  many false p

def few1 (p : Pattern) : Pattern :=
  p ++ many false p

def among (s : String) : Pattern :=
  one ⟨s.toList.map .char, false⟩

def notAmong (s : String) : Pattern :=
  one ⟨s.toList.map .char, true⟩

def asciiOr (s : String) : Pattern :=
  one ⟨[.range 'A' 'Z', .range 'a' 'z', .range '0' '9'] ++ s.toList.map .char, false⟩

def wordOr (s : String) : Pattern :=
  one ⟨.word :: s.toList.map .char, false⟩

def blankOr (s : String) : Pattern :=
  one ⟨.blank :: s.toList.map .char, false⟩

def wordChar : Pattern :=
  one ⟨[.word], false⟩

def blank : Pattern :=
  one ⟨[.blank], false⟩

def anyChar : Pattern :=
  notAmong "\n"

def blanks : Pattern :=
  many0 blank

def gap : Pattern :=
  many1 blank

/-- At least one word character. -/
def word : Pattern :=
  many1 wordChar

def spaced (s : String) : Pattern :=
  text s ++ gap

/-- An opening sign, anything but the closing sign, and the closing sign. -/
def enclosed (opening closing : String) : Pattern :=
  text opening ++ many0 (notAmong closing) ++ text closing

def captureAs (name : String) (p : Pattern) : Pattern :=
  capture name.toList p

def lineStart : Pattern :=
  start ++ blanks

def bodyOrEnd : Pattern :=
  text "\x7b" ||| finish

def declaredName : Pattern :=
  captureAs "name" word

def typeParameters : Pattern :=
  opt (enclosed "<" ">")

/-- Type parameters in angle brackets with blanks before them, if there are any. -/
def spacedTypeParameters : Pattern :=
  opt (blanks ++ enclosed "<" ">")

def parameterList : Pattern :=
  text "(" ++ captureAs "params" (many0 (notAmong ")")) ++ text ")"

def quotedTarget : Pattern :=
  among "'\"" ++ captureAs "target" (many1 (notAmong "'\"")) ++ among "'\""

end Pattern

end DependencyAtlas
