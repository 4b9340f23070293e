import DependencyAtlas.Text.Basic

namespace DependencyAtlas.Text

structure Nesting where
  depth : Nat := 0
  quote : Option Char := none
  deriving DecidableEq, Repr

def isQuote (c : Char) : Bool :=
  c == '"' || c == '\'' || c == '`'

def isOpener (c : Char) : Bool :=
  c == '(' || c == '[' || c == '\x7b' || c == '<'

def isCloser (c : Char) : Bool :=
  c == ')' || c == ']' || c == '\x7d' || c == '>'

namespace Nesting

/-- The place after a character. Brackets of all shapes count alike, one that closes nothing is
passed over, and a quote ends at the next quote of its kind. -/
def step (s : Nesting) (c : Char) : Nesting :=
  match s.quote with
  | some q => if c = q then { s with quote := none } else s
  | none =>
    if isQuote c then { s with quote := some c }
    else if isOpener c then { s with depth := s.depth + 1 }
    else if isCloser c && 0 < s.depth then { s with depth := s.depth - 1 }
    else s

def isFree (s : Nesting) (c : Char) : Bool :=
  s.quote.isNone && s.depth == 0 && !isQuote c && !isOpener c

end Nesting

def topLevelPieces (cut : Char → Bool) : Nesting → Text → List Text
  | _, [] => [[]]
  | s, c :: t =>
    if s.isFree c && cut c then [] :: topLevelPieces cut s t
    else
      match topLevelPieces cut (s.step c) t with
      | [] => [[c]]
      | p :: ps => (c :: p) :: ps

/-- The trimmed pieces of a text between its free characters that satisfy `cut`, blank ones left
out. -/
def splitTopLevel (cut : Char → Bool) (t : Text) : List Text :=
  ((topLevelPieces cut {} t).map trim).filter (· ≠ [])

def findFrom (p : Char → Bool) : Nesting → Text → Option Nat
  | _, [] => none
  | s, c :: t => if s.isFree c && p c then some 0 else (findFrom p (s.step c) t).map (· + 1)

def findTopLevel (p : Char → Bool) (t : Text) : Option Nat :=
  findFrom p {} t

def inOperator (before after : Option Char) : Bool :=
  after.any (fun c => c == '=' || c == '>') ||
    before.any (fun c => c == '!' || c == '<' || c == '>' || c == '=')

def assignmentFrom : Nesting → (before : Option Char) → Text → Option (Text × Text)
  | _, _, [] => none
  | s, before, c :: t =>
    if s.isFree c && c == '=' && !inOperator before t.head? then some ([], t)
    else (assignmentFrom (s.step c) (some c) t).map fun r => (c :: r.1, r.2)

/-- A declaration and its default value, which is what stands after the first free assignment sign
unless that is blank. -/
def splitDefault (t : Text) : Text × Option Text :=
  match assignmentFrom {} none t with
  | none => (trim t, none)
  | some (decl, value) => (trim decl, if trim value = [] then none else some (trim value))

end DependencyAtlas.Text
