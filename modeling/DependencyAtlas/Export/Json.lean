import DependencyAtlas.Graph.Relationship

namespace DependencyAtlas

inductive JsonValue where
  | text (t : Text)
  | number (n : Int)
  | array (items : List JsonValue)
  | object (fields : List (Text × JsonValue))
  deriving Repr

namespace JsonValue

def unitEscape (n : Nat) : Text :=
  '\\' :: 'u' :: Text.hexDigits 4 n

/-- How a character is written between double quotes. Above the sixteen-bit range it takes two code
units. -/
def escape (c : Char) : Text :=
  if c = '"' ∨ c = '\\' then ['\\', c]
  else if c = '\n' then ['\\', 'n']
  else if c = '\r' then ['\\', 'r']
  else if c = '\t' then ['\\', 't']
  else if c = '\x0c' then ['\\', 'f']
  else if c = '\x08' then ['\\', 'b']
  else if 0x20 ≤ c.toNat ∧ c.toNat < 0x7F then [c]
  else if c.toNat < 0x10000 then unitEscape c.toNat
  else
    let n := c.toNat - 0x10000
    unitEscape (0xD800 + n / 0x400) ++ unitEscape (0xDC00 + n % 0x400)

def quote (t : Text) : Text :=
  '"' :: t.flatMap escape ++ ['"']

def newline (level : Nat) : Text :=
  '\n' :: List.replicate (2 * level) ' '

mutual

/-- The text of a value at a level of nesting. -/
def render (level : Nat) : JsonValue → Text
  | .text t => quote t
  | .number n => Text.ofInt n
  | .array [] => "[]".toList
  | .array (v :: vs) =>
    ['['] ++ newline (level + 1) ++ render (level + 1) v ++ renderItems (level + 1) vs ++
      newline level ++ [']']
  | .object [] => ['\x7b', '\x7d']
  | .object ((name, v) :: fields) =>
    ['\x7b'] ++ newline (level + 1) ++ quote name ++ ": ".toList ++ render (level + 1) v
      ++ renderFields (level + 1) fields ++ newline level ++ ['\x7d']

def renderItems (level : Nat) : List JsonValue → Text
  | [] => []
  | v :: vs => [','] ++ newline level ++ render level v ++ renderItems level vs

def renderFields (level : Nat) : List (Text × JsonValue) → Text
  | [] => []
  | (name, v) :: fields =>
    [','] ++ newline level ++ quote name ++ ": ".toList ++ render level v ++
      renderFields level fields

end

end JsonValue

def Relationship.toJson (r : Relationship) : JsonValue :=
  .object [("from".toList, .text r.source), ("to".toList, .text r.target),
    ("type".toList, .text r.verb.word.toList), ("layer".toList, .number r.layer.number)]

namespace Export

def payload (rs : List Relationship) : JsonValue :=
  .object [("relationships".toList, .array (rs.map Relationship.toJson))]

def json (rs : List Relationship) : Text :=
  (payload rs).render 0 ++ ['\n']

end Export

end DependencyAtlas
