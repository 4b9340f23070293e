namespace DependencyAtlas

abbrev Text := List Char

namespace Text

instance : LawfulBEq Text := inferInstance

def inRanges (table : List (Nat × Nat)) (c : Char) : Bool :=
  table.any fun r => r.1 ≤ c.toNat && c.toNat ≤ r.2

def isBlank (c : Char) : Bool :=
  inRanges [(0x09, 0x0D), (0x1C, 0x20), (0x85, 0x85), (0xA0, 0xA0), (0x1680, 0x1680),
    (0x2000, 0x200A), (0x2028, 0x2029), (0x202F, 0x202F), (0x205F, 0x205F), (0x3000, 0x3000)] c

def trimLeft (t : Text) : Text :=
  t.dropWhile isBlank

def dropEndWhile (p : Char → Bool) (t : Text) : Text :=
  (t.reverse.dropWhile p).reverse

def trimRight (t : Text) : Text :=
  dropEndWhile isBlank t

/-- A text without the blanks at both its ends. -/
def trim (t : Text) : Text :=
  trimRight (trimLeft t)

def indent (line : Text) : Nat :=
  (line.takeWhile isBlank).length

def pieces (cut : Char → Bool) : Text → List Text
  | [] => [[]]
  | c :: t =>
    if cut c then [] :: pieces cut t
    else
      match pieces cut t with
      | [] => [[c]]
      | p :: ps => (c :: p) :: ps

def words (t : Text) : List Text :=
  (pieces isBlank t).filter (· ≠ [])

/-- Texts put together with `sep` between neighbours. -/
def join (sep : Text) (parts : List Text) : Text :=
  sep.intercalate parts

def hasPart (part : Text) : Text → Bool
  | [] => part.isEmpty
  | c :: t => part.isPrefixOf (c :: t) || hasPart part t

/-- Deletes every occurrence of `part`, scanning from the left; the counter is what is left of the
occurrence in progress. -/
def deleteFrom (part : Text) : Nat → Text → Text
  | _, [] => []
  | 0, c :: t =>
    if part.isPrefixOf (c :: t) then deleteFrom part (part.length - 1) t
    else c :: deleteFrom part 0 t
  | n + 1, _ :: t => deleteFrom part n t

def delete (part t : Text) : Text :=
  deleteFrom part 0 t

/-- The part of a text before the first character that satisfies `p`, and the rest after that
character; nothing when there is no such character. -/
def cutAt (p : Char → Bool) : Text → Option (Text × Text)
  | [] => none
  | c :: t => if p c then some ([], t) else (cutAt p t).map fun r => (c :: r.1, r.2)

def ofNat (n : Nat) : Text :=
  Nat.toDigits 10 n

def ofInt (i : Int) : Text :=
  if i < 0 then '-' :: ofNat i.natAbs else ofNat i.natAbs

def le : Text → Text → Bool
  | [], _ => true
  | _ :: _, [] => false
  | c :: s, d :: t => c.toNat < d.toNat || (c == d && le s t)

end Text

end DependencyAtlas
