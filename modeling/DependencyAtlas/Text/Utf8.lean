import DependencyAtlas.Text.Basic

namespace DependencyAtlas.Text

/-- A character that has begun: its bits so far, the bytes it still needs, and the bounds of the
next one. -/
structure Utf8Pending where
  bits : Nat
  needed : Nat
  lowest : Nat
  highest : Nat
  deriving DecidableEq, Repr

def replacement : Char := '�'

def utf8Begin (b : Nat) : Text × Option Utf8Pending :=
  if b < 0x80 then ([Char.ofNat b], none)
  else if b < 0xC2 then ([replacement], none)
  else if b < 0xE0 then ([], some ⟨b - 0xC0, 1, 0x80, 0xBF⟩)
  else if b = 0xE0 then ([], some ⟨0, 2, 0xA0, 0xBF⟩)
  else if b = 0xED then ([], some ⟨0xD, 2, 0x80, 0x9F⟩)
  else if b < 0xF0 then ([], some ⟨b - 0xE0, 2, 0x80, 0xBF⟩)
  else if b = 0xF0 then ([], some ⟨0, 3, 0x90, 0xBF⟩)
  else if b < 0xF4 then ([], some ⟨b - 0xF0, 3, 0x80, 0xBF⟩)
  else if b = 0xF4 then ([], some ⟨4, 3, 0x80, 0x8F⟩)
  else ([replacement], none)

def utf8ReadFrom : Option Utf8Pending → List UInt8 → Text
  | none, [] => []
  | some _, [] => [replacement]
  | none, b :: rest => (utf8Begin b.toNat).1 ++ utf8ReadFrom (utf8Begin b.toNat).2 rest
  | some p, b :: rest =>
    if p.lowest ≤ b.toNat ∧ b.toNat ≤ p.highest then
      let bits := p.bits * 64 + (b.toNat - 0x80)
      if p.needed ≤ 1 then Char.ofNat bits :: utf8ReadFrom none rest
      else utf8ReadFrom (some ⟨bits, p.needed - 1, 0x80, 0xBF⟩) rest
    else replacement :: (utf8Begin b.toNat).1 ++ utf8ReadFrom (utf8Begin b.toNat).2 rest

def ofUtf8 (bytes : List UInt8) : Text :=
  utf8ReadFrom none bytes

def toUtf8 (t : Text) : List UInt8 :=
  t.flatMap String.utf8EncodeChar

end DependencyAtlas.Text
