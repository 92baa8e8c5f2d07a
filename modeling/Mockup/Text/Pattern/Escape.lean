import Mockup.Text.CharName
import Mockup.Text.Pattern.Reading

namespace Mockup.Text.Pattern

structure Item where
  pattern : Pattern
  repeatable : Bool := true

namespace Reading

def controls : List (Char × Nat) :=
  [('a', 7), ('f', 12), ('n', 10), ('r', 13), ('t', 9), ('v', 11)]

def isOctal (c : Char) : Bool := '0' ≤ c && c ≤ '7'

def ofOctal (cs : List Char) : Nat := Nat.ofDigitChars 8 cs 0

/-- A code point in so many hexadecimal digits. It is one flaw to be no code point and another not
to fit into a signed word of 32 bits. -/
def hexCode (count : Nat) : Reading Nat := do
  let values := (← takeAtMost count fun c => (hexValue? c).isSome).filterMap hexValue?
  if values.length < count then fail
  let n := values.foldl (fun n d => n * 16 + d) 0
  if n ≤ 0x10FFFF then return n
  else if n < 0x80000000 then fail
  else throw .tooLarge

/-- A code point in octal digits after the first one, which takes no more than a byte. -/
def octalCode (first : Char) : Reading Nat := do
  let n := ofOctal (first :: (← takeAtMost 2 isOctal))
  if n ≤ 255 then return n else fail

def namedCode : Reading Nat := do
  expect '{'
  match codeNamed? (String.ofList ((← upTo '}').map Char.toUpper)) with
  | some n => return n
  | none => fail

def code (c : Char) : Reading Nat := do
  if c = 'x' then hexCode 2
  else if c = 'u' then hexCode 4
  else if c = 'U' then hexCode 8
  else if c = 'N' then namedCode
  else match controls.find? (·.1 == c) with
    | some e => return e.2
    | none => if c.isAlphanum then fail else return c.toNat

def single (f : Flags) (n : Nat) : Item := ⟨one (f.inSpan n n), true⟩

def reference (f : Flags) (number : Nat) : Reading Item := do
  checkClosed number
  return ⟨again number f.same, true⟩

/-- What a digit other than zero stands for: with two more octal digits a character, and with at
most one more digit a group. -/
def numbered (f : Flags) (c : Char) : Reading Item := do
  match (← get).left with
  | d :: e :: _ =>
    if isOctal c && isOctal d && isOctal e then return single f (← octalCode c)
  | _ => pure ()
  reference f (Nat.ofDigitChars 10 (c :: (← takeAtMost 1 Char.isDigit)) 0)

def escape (f : Flags) : Reading Item := do
  let c ← next
  match f.classOf? c, f.anchorOf? c with
  | some test, _ => return ⟨one test, true⟩
  | none, some test => return ⟨anchor test, false⟩
  | none, none =>
    if c = '0' then return single f (← octalCode c)
    else if c.isDigit then numbered f c
    else return single f (← code c)

inductive Member where
  | single (n : Nat)
  | many (test : Char → Bool)

def Member.test (f : Flags) : Member → Char → Bool
  | single n => f.inSpan n n
  | many test => test

def member (f : Flags) (c : Char) : Reading Member := do
  if c = '\\' then
    let d ← next
    match f.classOf? d with
    | some test => return .many test
    | none =>
      if d = 'b' then return .single 8
      else if isOctal d then return .single (← octalCode d)
      else return .single (← code d)
  else return .single c.toNat

/-- The members of a class up to the closing bracket, which may stand first as a member. The fuel
is more than the number of characters. -/
def members (f : Flags) : Nat → Bool → Reading (List (Char → Bool))
  | 0, _ => fail
  | fuel + 1, isFirst => do
    let c ← next
    if c = ']' && !isFirst then return []
    let low ← member f c
    if ← skip '-' then
      let d ← next
      if d = ']' then return [low.test f, f.inSpan 45 45]
      match low, ← member f d with
      | .single m, .single n =>
        if n < m then fail
        return f.inSpan m n :: (← members f fuel false)
      | _, _ => fail
    else return low.test f :: (← members f fuel false)

def bracketed (f : Flags) : Reading Item := do
  let negated ← skip '^'
  let tests ← members f ((← get).left.length + 1) true
  return ⟨one fun c => tests.any (fun test => test c) != negated, true⟩

end Reading

end Mockup.Text.Pattern
