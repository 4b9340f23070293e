import DependencyAtlas.Text.Basic

namespace DependencyAtlas.Text

/-- The length of what is left of a control sequence: parameters, then intermediate characters, then
one final character. Parameters come no more once `parametersOver`. -/
def controlTail? : (parametersOver : Bool) → Text → Option Nat
  | _, [] => none
  | parametersOver, c :: t =>
    if inRanges [(0x40, 0x7E)] c then some 1
    else if inRanges [(0x20, 0x2F)] c then (controlTail? true t).map (· + 1)
    else if inRanges [(0x30, 0x3F)] c && !parametersOver then (controlTail? false t).map (· + 1)
    else none

def controlLength? : Text → Option Nat
  | '\x1b' :: '[' :: t => (controlTail? false t).map (· + 2)
  | _ => none

def deleteControlsFrom : Nat → Text → Text
  | _, [] => []
  | 0, c :: t =>
    match controlLength? (c :: t) with
    | some n => deleteControlsFrom (n - 1) t
    | none => c :: deleteControlsFrom 0 t
  | n + 1, _ :: t => deleteControlsFrom n t

def deleteControls (t : Text) : Text :=
  deleteControlsFrom 0 t

def foldLineEnds : Text → Text
  | [] => []
  | '\r' :: '\n' :: t => '\n' :: foldLineEnds t
  | c :: t => c :: foldLineEnds t

def plain (t : Text) : Text :=
  foldLineEnds (deleteControls t)

end DependencyAtlas.Text
