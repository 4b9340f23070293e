import DependencyAtlas.CallSite
import DependencyAtlas.Pattern.Rule

namespace DependencyAtlas

structure MatcherSet (κ : Type := Pattern) where
  language : Language
  layer : Layer
  rules : List (Matcher κ)
  serial : Nat
  deriving DecidableEq, Repr

/-- A library of rules that reads each table entry when it is first asked for, keeps what it has
read, and counts the readings. -/
structure Library (κ : Type := Pattern) where
  tables : RuleTables κ
  kept : List (MatcherSet κ) := []
  /-- What finds the names that a line calls, once it has been needed. -/
  scanner : Option (Text → List Text) := none
  ready : Bool := false
  readings : Nat := 0

section

variable {κ : Type} [PatternForm κ]

def MatcherSet.find? (s : MatcherSet κ) (line : Text) : Option Finding :=
  Matcher.first? s.rules line

namespace Library

def kept? {κ : Type} (l : Library κ) (language : Language) (layer : Layer) :
    Option (MatcherSet κ) :=
  l.kept.find? fun s => s.language = language ∧ s.layer = layer

/-- The rules of a table entry, and the library that keeps them. -/
def compile (l : Library κ) (language : Language) (layer : Layer) :
    Except PatternFault (MatcherSet κ) × Library κ :=
  match l.kept? language layer with
  | some s => (.ok s, l)
  | none =>
    match l.tables.matchers language layer with
    | .error e => (.error e, l)
    | .ok rules =>
      let s : MatcherSet κ := ⟨language, layer, rules, l.readings⟩
      (.ok s, { l with kept := l.kept ++ [s], readings := l.readings + 1 })

def compileAll : List TableEntry → Library κ → Option PatternFault × Library κ
  | [], l => (none, l)
  | (language, layer) :: rest, l =>
    match l.compile language layer with
    | (.error e, l) => (some e, l)
    | (.ok _, l) => compileAll rest l

def prepare (l : Library κ) : Option PatternFault × Library κ :=
  if l.ready then (none, l)
  else
    match compileAll l.tables.entries l with
    | (some e, l) => (some e, l)
    | (none, l) => (none, { l with scanner := some CallSite.find, ready := true })

def clear {κ : Type} (l : Library κ) : Library κ :=
  { l with kept := [], scanner := none, ready := false }

def findCalls {κ : Type} (l : Library κ) (line : Text) : List Text × Library κ :=
  match l.scanner with
  | some scan => (scan line, l)
  | none => (CallSite.find line, { l with scanner := some CallSite.find })

end Library

end

end DependencyAtlas
