import DependencyAtlas.Text.Basic

namespace DependencyAtlas

structure Path where
  root : Text := []
  parts : List Text := []
  deriving DecidableEq, Repr

namespace Path

def rootOf (t : Text) : Text :=
  match (t.takeWhile (· == '/')).length with
  | 0 => []
  | 2 => "//".toList
  | _ => ['/']

/-- Reads a path. Empty names and single dots are dropped, double dots are kept. -/
def ofText (t : Text) : Path :=
  ⟨rootOf t, (Text.pieces (· == '/') t).filter fun n => n ≠ [] ∧ n ≠ ['.']⟩

def current : Path := {}

def render (p : Path) : Text :=
  if p.root = [] ∧ p.parts = [] then ['.'] else p.root ++ Text.join ['/'] p.parts

/-- The last name of a path; empty when there is none. -/
def name (p : Path) : Text :=
  p.parts.getLast?.getD []

def child (p : Path) (name : Text) : Path :=
  { p with parts := p.parts ++ [name] }

def parent (p : Path) : Path :=
  { p with parts := p.parts.dropLast }

def hasNul (p : Path) : Bool :=
  p.render.contains '\x00'

end Path

end DependencyAtlas
