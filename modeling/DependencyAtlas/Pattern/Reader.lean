import DependencyAtlas.Text.Number
import DependencyAtlas.Text.Quoted

namespace DependencyAtlas

/-- What is wrong with a written pattern. -/
inductive Malformed where
  | unclosedGroup
  | unopenedGroup
  | unknownGroup
  | badGroupName (name : Text)
  | repeatedGroupName (name : Text)
  | unclosedSet
  | badRange
  | badEscape
  | incompleteEscape
  | nothingToRepeat
  | repeatedRepetition
  | badCount
  deriving DecidableEq, Repr

/-- Why a written pattern cannot be read: it is malformed, or reading it breaks off with an error of
another kind. -/
inductive Unreadable where
  | malformed (reason : Text)
  | brokenOff (kind message : Text)
  deriving DecidableEq, Repr

namespace Malformed

def reason : Malformed → Text
  | .unclosedGroup => "missing ), unterminated subpattern".toList
  | .unopenedGroup => "unbalanced parenthesis".toList
  | .unknownGroup => "unknown extension".toList
  | .badGroupName name => "bad character in group name ".toList ++ Text.quoted name
  | .repeatedGroupName name => "redefinition of group name ".toList ++ Text.quoted name
  | .unclosedSet => "unterminated character set".toList
  | .badRange => "bad character range".toList
  | .badEscape => "bad escape".toList
  | .incompleteEscape => "incomplete escape".toList
  | .nothingToRepeat => "nothing to repeat".toList
  | .repeatedRepetition => "multiple repeat".toList
  | .badCount => "min repeat greater than max repeat".toList

def refuse {α : Type} (m : Malformed) : Except Unreadable α :=
  .error (.malformed m.reason)

end Malformed

namespace Unreadable

def tooManyRounds : Unreadable :=
  .brokenOff "OverflowError".toList "the repetition number is too large".toList

def tooManyDigits (n : Nat) : Unreadable :=
  .brokenOff "ValueError".toList
    ("Exceeds the limit (".toList ++ Text.ofNat Text.maxDigits
      ++ " digits) for integer string conversion: value has ".toList ++ Text.ofNat n
      ++ " digits; use sys.set_int_max_str_digits() to increase the limit".toList)

def unknownForm : Unreadable :=
  .brokenOff "NotImplementedError".toList "unknown form of pattern".toList

end Unreadable

namespace Pattern

def controlEscape? (c : Char) : Option Char :=
  match c with
  | 'n' => some '\n'
  | 't' => some '\t'
  | 'r' => some '\r'
  | 'f' => some '\x0c'
  | 'v' => some '\x0b'
  | 'a' => some '\x07'
  | _ => none

def hexValue? (c : Char) : Option Nat :=
  if c.isDigit then some (c.toNat - '0'.toNat)
  else if 'a' ≤ c ∧ c ≤ 'f' then some (c.toNat - 'a'.toNat + 10)
  else if 'A' ≤ c ∧ c ≤ 'F' then some (c.toNat - 'A'.toNat + 10)
  else none

def readCode (width : Nat) (t : Text) : Except Unreadable (CharItem × Text) :=
  match (t.take width).mapM hexValue? with
  | none => Malformed.incompleteEscape.refuse
  | some digits =>
    let code := digits.foldl (fun n d => 16 * n + d) 0
    if digits.length < width then Malformed.incompleteEscape.refuse
    else if 0x10FFFF < code then Malformed.badEscape.refuse
    else if Nat.isValidChar code then .ok (.char (Char.ofNat code), t.drop width)
    else .error .unknownForm

/-- Reads the rest of an escape that stands for characters. -/
def readItem (c : Char) (t : Text) : Except Unreadable (CharItem × Text) :=
  match c with
  | 's' => .ok (.blank, t)
  | 'S' => .ok (.notBlank, t)
  | 'w' => .ok (.word, t)
  | 'W' => .ok (.notWord, t)
  | 'd' => .ok (.digit, t)
  | 'D' => .ok (.notDigit, t)
  | 'x' => readCode 2 t
  | 'u' => readCode 4 t
  | 'U' => readCode 8 t
  | 'N' => .error .unknownForm
  | _ =>
    match controlEscape? c with
    | some d => .ok (.char d, t)
    | none =>
      -- digits refer to a group or give the code of a character in base eight
      if c.isDigit then .error .unknownForm
      else if c.isAlpha then Malformed.badEscape.refuse
      else .ok (.char c, t)

def readEscape (c : Char) (t : Text) : Except Unreadable (Pattern × Bool × Text) :=
  match c with
  | 'b' => .ok (wordEdge, false, t)
  | 'B' => .ok (noWordEdge, false, t)
  | 'A' => .ok (start, false, t)
  | 'Z' => .ok (textEnd, false, t)
  | _ => (readItem c t).map fun (i, u) => (one ⟨[i], false⟩, true, u)

def readMember : Text → Except Unreadable (CharItem × Text)
  | [] => Malformed.unclosedSet.refuse
  | ['\\'] => Malformed.badEscape.refuse
  | '\\' :: 'b' :: t => .ok (.char '\x08', t)
  | '\\' :: c :: t => readItem c t
  | c :: t => .ok (.char c, t)

/-- Reads the members of a set up to its closing bracket, which is a member itself where it stands
`first`. -/
def readMembers :
    (fuel : Nat) → (first : Bool) → Text → Except Unreadable (List CharItem × Text)
  | 0, _, _ => Malformed.unclosedSet.refuse
  | _ + 1, false, ']' :: t => .ok ([], t)
  | n + 1, _, t => do
    let (low, t) ← readMember t
    match t with
    | '-' :: c :: u =>
      if c = ']' then
        let (items, u) ← readMembers n false t
        return (low :: items, u)
      else
        let (high, u) ← readMember (c :: u)
        match low, high with
        | .char a, .char b =>
          if b.toNat < a.toNat then Malformed.badRange.refuse
          let (items, u) ← readMembers n false u
          return (.range a b :: items, u)
        | _, _ => Malformed.badRange.refuse
    | _ =>
      let (items, t) ← readMembers n false t
      return (low :: items, t)

def readSet (t : Text) : Except Unreadable (CharSet × Text) :=
  match t with
  | '^' :: u => (readMembers (u.length + 1) true u).map fun (items, v) => (⟨items, true⟩, v)
  | _ => (readMembers (t.length + 1) true t).map fun (items, v) => (⟨items, false⟩, v)

def isGroupName : Text → Bool
  | [] => false
  | c :: cs => Text.isWord c && !CharItem.holds c .digit && cs.all Text.isWord

/-- Reads what stands behind the opening sign of a group: the name of the capture that the group is,
if it is one, and the rest, which starts with the group's content. -/
def readGroupStart : Text → Except Unreadable (Option Text × Text)
  | '?' :: ':' :: t => .ok (none, t)
  | '?' :: 'P' :: '<' :: t =>
    match Text.cutAt (· == '>') t with
    | none => Malformed.unclosedGroup.refuse
    | some (name, u) =>
      if isGroupName name then .ok (some name, u) else (Malformed.badGroupName name).refuse
  | '?' :: 'P' :: '=' :: _ | '?' :: '<' :: '=' :: _ | '?' :: '<' :: '!' :: _ =>
    .error .unknownForm
  | '?' :: c :: _ =>
    if c ∈ "=!>(#aiLmsux-".toList then .error .unknownForm else Malformed.unknownGroup.refuse
  | '?' :: _ => Malformed.unknownGroup.refuse
  | t => .ok (none, t)

structure Repetition where
  least : Nat
  most : Option Nat
  deriving DecidableEq, Repr

def counts? (t : Text) : Option (Text × Text × Text) :=
  let low := t.takeWhile Char.isDigit
  match t.dropWhile Char.isDigit with
  | ',' :: u =>
    match u.dropWhile Char.isDigit with
    | '\x7d' :: v => some (low, u.takeWhile Char.isDigit, v)
    | _ => none
  | '\x7d' :: u => if low = [] then none else some (low, low, u)
  | _ => none

def maxRounds : Nat := 4294967295

def readCount (digits : Text) : Except Unreadable Nat :=
  match Text.toNat? digits with
  | none => .error (.tooManyDigits digits.length)
  | some n => if maxRounds ≤ n then .error .tooManyRounds else .ok n

def readSign : Text → Except Unreadable (Option (Repetition × Text))
  | '*' :: t => .ok (some (⟨0, none⟩, t))
  | '+' :: t => .ok (some (⟨1, none⟩, t))
  | '?' :: t => .ok (some (⟨0, some 1⟩, t))
  | '\x7b' :: t =>
    match counts? t with
    | none => .ok none
    | some (low, high, u) => do
      let least ← if low = [] then pure 0 else readCount low
      let most ← if high = [] then pure none else some <$> readCount high
      if most.any (· < least) then Malformed.badCount.refuse
      return some (⟨least, most⟩, u)
  | _ => .ok none

def repeated (greedy : Bool) (p : Pattern) : Repetition → Pattern
  | ⟨0, none⟩ => many greedy p
  | ⟨1, none⟩ => p ++ many greedy p
  | ⟨0, some 1⟩ => if greedy then p ||| empty else empty ||| p
  | ⟨least, none⟩ => times greedy least 0 p ++ many greedy p
  | ⟨least, some most⟩ => times greedy least (most - least) p

def readRepetition (p : Pattern) (repeatable : Bool) (t : Text) :
    Except Unreadable (Pattern × Text) := do
  match ← readSign t with
  | none => return (p, t)
  | some (r, u) =>
    if !repeatable then Malformed.nothingToRepeat.refuse
    let (greedy, v) ← match u with
      | '?' :: v => pure (false, v)
      | '+' :: _ => throw .unknownForm
      | _ => pure (true, u)
    if (← readSign v).isSome then Malformed.repeatedRepetition.refuse
    return (repeated greedy p r, v)

def readSimple (c : Char) (t : Text) : Except Unreadable (Pattern × Bool × Text) := do
  match c with
  | '^' => return (start, false, t)
  | '$' => return (finish, false, t)
  | '.' => return (anyChar, true, t)
  | '[' => (readSet t).map fun (s, u) => (one s, true, u)
  | '\\' =>
    match t with
    | [] => Malformed.badEscape.refuse
    | d :: u => readEscape d u
  | _ =>
    if (← readSign (c :: t)).isSome then Malformed.nothingToRepeat.refuse
    return (one ⟨[.char c], false⟩, true, t)

def orElse : Option Pattern → Pattern → Pattern
  | none, q => q
  | some p, q => p ||| q

/-- Reads alternatives up to the end or to the sign that closes the group: `names` are the captures
so far, `earlier` are the complete alternatives before and `current` is the one being read. -/
def readFrom : (fuel : Nat) → (names : List Text) → (earlier : Option Pattern) →
    (current : Pattern) → Text → Except Unreadable (Pattern × List Text × Text)
  | 0, _, _, _, _ => Malformed.unclosedGroup.refuse
  | _ + 1, names, earlier, current, [] => .ok (orElse earlier current, names, [])
  | n + 1, names, earlier, current, c :: t =>
    if c = ')' then .ok (orElse earlier current, names, c :: t)
    else if c = '|' then readFrom n names (some (orElse earlier current)) empty t
    else if c = '(' then do
      let (name?, t) ← readGroupStart t
      let names ← match name? with
        | none => pure names
        | some name =>
          if name ∈ names then (Malformed.repeatedGroupName name).refuse else pure (name :: names)
      let (inner, names, t) ← readFrom n names none empty t
      match t with
      | ')' :: t =>
        let (p, t) ← readRepetition (name?.elim inner (capture · inner)) true t
        readFrom n names earlier (current ++ p) t
      | _ => Malformed.unclosedGroup.refuse
    else do
      let (p, repeatable, t) ← readSimple c t
      let (p, t) ← readRepetition p repeatable t
      readFrom n names earlier (current ++ p) t

def read (t : Text) : Except Unreadable Pattern := do
  let (p, _, rest) ← readFrom (t.length + 1) [] none empty t
  if rest = [] then return p else Malformed.unopenedGroup.refuse

end Pattern

end DependencyAtlas
