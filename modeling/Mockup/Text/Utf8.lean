namespace Mockup.Text.Utf8

/-- A character that has begun: the bytes still owed, the bits so far, and the least and the
greatest byte that may come next. -/
structure Begun where
  owed : Nat
  bits : Nat
  least : Nat
  greatest : Nat

inductive Start where
  | whole (c : Char)
  | begun (p : Begun)
  | stray

def start (b : Nat) : Start :=
  if b < 0x80 then .whole (Char.ofNat b)
  else if b < 0xC2 then .stray
  else if b < 0xE0 then .begun ⟨1, b - 0xC0, 0x80, 0xBF⟩
  else if b = 0xE0 then .begun ⟨2, 0, 0xA0, 0xBF⟩
  else if b = 0xED then .begun ⟨2, 13, 0x80, 0x9F⟩
  else if b < 0xF0 then .begun ⟨2, b - 0xE0, 0x80, 0xBF⟩
  else if b = 0xF0 then .begun ⟨3, 0, 0x90, 0xBF⟩
  else if b < 0xF4 then .begun ⟨3, b - 0xF0, 0x80, 0xBF⟩
  else if b = 0xF4 then .begun ⟨3, 4, 0x80, 0x8F⟩
  else .stray

/-- The characters of some bytes. A run of bytes that begins a character but cannot go on is one
that cannot be read. -/
def scan : Option Begun → List UInt8 → List (Option Char)
  | none, [] => []
  | some _, [] => [none]
  | pending, b :: rest =>
    let fresh : List (Option Char) :=
      match start b.toNat with
      | .whole c => some c :: scan none rest
      | .begun p => scan (some p) rest
      | .stray => none :: scan none rest
    match pending with
    | none => fresh
    | some p =>
      if p.least ≤ b.toNat && b.toNat ≤ p.greatest then
        let bits := p.bits * 64 + (b.toNat - 0x80)
        if p.owed ≤ 1 then some (Char.ofNat bits) :: scan none rest
        else scan (some ⟨p.owed - 1, bits, 0x80, 0xBF⟩) rest
      else none :: fresh

def decode? (bytes : List UInt8) : Option (List Char) := (scan none bytes).mapM id

def mend (bytes : List UInt8) : List Char := (scan none bytes).map fun c => c.getD '\uFFFD'

end Mockup.Text.Utf8
