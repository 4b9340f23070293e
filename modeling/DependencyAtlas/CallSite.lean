import DependencyAtlas.Text.TopLevel
import DependencyAtlas.Text.Word

namespace DependencyAtlas.CallSite

open Text

def literalLength (q : Char) : Text → Option Nat
  | [] => none
  | '\\' :: c :: t => if c = '\n' then none else (literalLength q t).map (· + 2)
  | c :: t => if c = q then some 1 else if c = '\\' then none else (literalLength q t).map (· + 1)

def blankFrom : Nat → Text → Text
  | _, [] => []
  | n + 1, _ :: t => blankFrom n t
  | 0, c :: t =>
    if isQuote c then
      match literalLength c t with
      | some n => '"' :: '"' :: blankFrom n t
      | none => c :: blankFrom 0 t
    else c :: blankFrom 0 t

def blankLiterals (line : Text) : Text :=
  blankFrom 0 line

def mark : Text → Text
  | '?' :: _ => ['?']
  | '!' :: _ => ['!']
  | _ => []

/-- Whether a character can directly precede a name without being part of it. -/
def separates (c : Char) : Bool :=
  !isWord c && c != '$'

def nameAt (previous : Option Char) : Text → Option Text
  | [] => none
  | c :: t =>
    if isNameStart c && previous.all separates then
      let after := t.dropWhile isWord
      let name := c :: t.takeWhile isWord ++ mark after
      if (trimLeft (after.drop (mark after).length)).head? = some '(' then some name else none
    else none

def namesFrom (previous : Option Char) : Text → List Text
  | [] => []
  | c :: t => (nameAt previous (c :: t)).toList ++ namesFrom (some c) t

/-- Words that stand before a parenthesis without calling anything. -/
def keywords : List String :=
  ["if", "elif", "else", "for", "foreach", "while", "until", "unless", "do", "switch", "case",
    "match", "catch", "try", "with", "return", "yield", "await", "throw", "sizeof", "typeof",
    "alignof", "decltype", "instanceof", "function", "func", "fn", "def", "lambda", "and", "or",
    "not", "in", "is", "defined", "assert", "elseif", "when"]

def find (line : Text) : List Text :=
  (namesFrom none (blankLiterals line)).filter fun n => n ∉ keywords.map String.toList

end DependencyAtlas.CallSite
