import DependencyAtlas.Pattern.Basic

namespace DependencyAtlas

abbrev Captures := List (Text × Text)

/-- A place in a text, with what has been captured on the way there. -/
structure Place where
  offset : Nat := 0
  previous : Option Char := none
  rest : Text
  captures : Captures := []
  deriving DecidableEq, Repr

namespace Place

def advance (s : Place) (set : CharSet) : Option Place :=
  match s.rest with
  | [] => none
  | c :: t =>
    if set.contains c then some { s with offset := s.offset + 1, previous := some c, rest := t }
    else none

def atWordEdge (s : Place) : Bool :=
  s.previous.any Text.isWord != s.rest.head?.any Text.isWord

def bind (name : Text) (s t : Place) : Place :=
  { t with
    captures := t.captures.filter (·.1 ≠ name) ++ [(name, s.rest.take (t.offset - s.offset))] }

end Place

abbrev Search (α : Type) := Place → (Place → Option α) → Option α

def Search.iterate {α : Type} (greedy : Bool) (body : Search α) : (fuel : Nat) → Search α
  | 0, s, k => k s
  | n + 1, s, k =>
    let more := fun _ : Unit =>
      body s fun t => if s.offset < t.offset then Search.iterate greedy body n t k else k t
    if greedy then (more ()).orElse fun _ => k s else (k s).orElse more

def Search.times {α : Type} (body : Search α) : Nat → Search α
  | 0, s, k => k s
  | n + 1, s, k => body s fun t => Search.times body n t k

namespace Pattern

/-- The first answer of the continuation at a place to which the pattern leads. A repetition takes
at most one round for each character that is left, and one without headway. -/
def run {α : Type} : Pattern → Search α
  | .empty, s, k => k s
  | .one set, s, k => (s.advance set).bind k
  | .start, s, k => if s.previous.isNone then k s else none
  | .finish, s, k => if s.rest = [] ∨ s.rest = ['\n'] then k s else none
  | .textEnd, s, k => if s.rest = [] then k s else none
  | .wordEdge, s, k => if s.atWordEdge then k s else none
  | .noWordEdge, s, k =>
    if s.atWordEdge ∨ s.previous.isNone ∧ s.rest = [] then none else k s
  | .seq p q, s, k => p.run s fun t => q.run t k
  | .either p q, s, k => (p.run s k).orElse fun _ => q.run s k
  | .many greedy p, s, k => Search.iterate greedy p.run (s.rest.length + 1) s k
  | .times greedy least more p, s, k =>
    Search.times p.run least s fun t => Search.iterate greedy p.run more t k
  | .capture name p, s, k => p.run s fun t => k (Place.bind name s t)

def match? (p : Pattern) (t : Text) : Option Captures :=
  p.run { rest := t } fun s => some s.captures

end Pattern

end DependencyAtlas
