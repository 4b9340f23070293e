import DependencyAtlas.Language
import DependencyAtlas.Pattern.Match
import DependencyAtlas.Pattern.Reader
import DependencyAtlas.Text.Quoted

namespace DependencyAtlas

class PatternForm (κ : Type) where
  read : Text → Except Unreadable κ
  match? : κ → Text → Option Captures

instance : PatternForm Pattern := ⟨Pattern.read, Pattern.match?⟩

inductive PatternSource (κ : Type := Pattern) where
  | given (p : κ)
  | written (t : Text)
  deriving DecidableEq, Repr

structure Rule (κ : Type := Pattern) where
  kind : Text
  source : PatternSource κ
  deriving DecidableEq, Repr

structure Matcher (κ : Type := Pattern) where
  kind : Text
  pattern : κ
  deriving DecidableEq, Repr

structure Finding where
  kind : Text
  groups : Captures
  deriving DecidableEq, Repr

structure PatternError where
  language : Language
  layer : Layer
  pattern : Text
  reason : Text
  deriving DecidableEq, Repr

def PatternError.message (e : PatternError) : Text :=
  "Invalid ".toList ++ e.layer.name.toList ++ " pattern for ".toList ++ e.language.word.toList
    ++ ": ".toList ++ Text.quoted e.pattern

/-- Why the rules of a table cannot be read. Only malformed patterns are reported as such; any other
error that breaks off the reading of a pattern is passed on as it is. -/
inductive PatternFault where
  | malformed (e : PatternError)
  | brokenOff (kind message : Text)
  deriving DecidableEq, Repr

def PatternFault.message : PatternFault → Text
  | .malformed e => e.message
  | .brokenOff _ message => message

namespace Finding

def get? (f : Finding) (name : String) : Option Text :=
  f.groups.lookup name.toList

end Finding

section

variable {κ : Type} [PatternForm κ]

namespace Matcher

def find? (m : Matcher κ) (line : Text) : Option Finding :=
  (PatternForm.match? m.pattern line).map fun captures =>
    ⟨m.kind, (captures.map fun (name, t) => (name, Text.trim t)).filter fun g => g.2 ≠ []⟩

theorem find?_eq (m : Matcher) (line : Text) :
    m.find? line = (m.pattern.match? line).map fun captures =>
      ⟨m.kind, (captures.map fun (name, t) => (name, Text.trim t)).filter fun g => g.2 ≠ []⟩ :=
  rfl

def first? (ms : List (Matcher κ)) (line : Text) : Option Finding :=
  ms.findSome? fun m => m.find? line

end Matcher

/-- Why a pattern cannot be read, said about a table entry. -/
def Unreadable.fault (language : Language) (layer : Layer) (pattern : Text) :
    Unreadable → PatternFault
  | .malformed reason => .malformed ⟨language, layer, pattern, reason⟩
  | .brokenOff kind message => .brokenOff kind message

def Rule.matcher (language : Language) (layer : Layer) (r : Rule κ) :
    Except PatternFault (Matcher κ) :=
  match r.source with
  | .given p => .ok ⟨r.kind, p⟩
  | .written s =>
    match PatternForm.read s with
    | .ok p => .ok ⟨r.kind, p⟩
    | .error e => .error (e.fault language layer s)

abbrev RuleTables (κ : Type := Pattern) := List (Language × List (Layer × List (Rule κ)))

abbrev TableEntry := Language × Layer

namespace RuleTables

/-- The rules of a language on a layer; none when the tables have no entry. -/
def rules {κ : Type} (t : RuleTables κ) (language : Language) (layer : Layer) : List (Rule κ) :=
  ((t.lookup language).bind fun layers => layers.lookup layer).getD []

/-- Reads the rules of a language on a layer, up to the first whose pattern cannot be read. -/
def matchers (t : RuleTables κ) (language : Language) (layer : Layer) :
    Except PatternFault (List (Matcher κ)) :=
  (t.rules language layer).mapM (Rule.matcher language layer)

def entries {κ : Type} (t : RuleTables κ) : List TableEntry :=
  t.flatMap fun (language, layers) => layers.map fun (layer, _) => (language, layer)

end RuleTables

end

end DependencyAtlas
