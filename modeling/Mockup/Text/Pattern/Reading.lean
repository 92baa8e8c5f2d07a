import Mockup.Text.Pattern.Flags

namespace Mockup.Text.Pattern

inductive Flaw where
  | malformed
  /-- a number of repetitions or a code point is too large -/
  | tooLarge
  deriving DecidableEq, Repr

structure Source where
  left : List Char
  /-- the groups in order; one that is still open has no width -/
  widths : List (Option Width) := []
  names : List (String × Nat) := []
  /-- the number of groups in front of the look-behind that is being read -/
  behind : Option Nat := none
  /-- the groups that conditions ask for, which may come later -/
  asked : List Nat := []
  /-- whether every look-behind so far has one width -/
  even : Bool := true

abbrev Reading := StateT Source (Except Flaw)

namespace Reading

def fail {α : Type} : Reading α := throw .malformed

def peek : Reading (Option Char) := do return (← get).left.head?

def next : Reading Char := do
  match (← get).left with
  | c :: cs =>
    modify fun s => { s with left := cs }
    return c
  | [] => fail

def skip (c : Char) : Reading Bool := do
  match (← get).left with
  | d :: cs =>
    if d = c then
      modify fun s => { s with left := cs }
      return true
    else return false
  | [] => return false

def expect (c : Char) : Reading Unit := do
  if !(← skip c) then fail

def takeWhile (test : Char → Bool) : Reading (List Char) :=
  modifyGet fun s => (s.left.takeWhile test, { s with left := s.left.dropWhile test })

def takeAtMost (count : Nat) (test : Char → Bool) : Reading (List Char) :=
  modifyGet fun s =>
    let taken := (s.left.take count).takeWhile test
    (taken, { s with left := s.left.drop taken.length })

def upTo (c : Char) : Reading (List Char) := do
  let cs ← takeWhile (· != c)
  expect c
  return cs

def past (c : Char) : List Char → Option (List Char)
  | '\\' :: _ :: cs => past c cs
  | d :: cs => if d = c then some cs else past c cs
  | [] => none

def openGroup : Reading Nat :=
  modifyGet fun s => (s.widths.length + 1, { s with widths := s.widths ++ [none] })

def widthOf (s : Source) (number : Nat) : Option Width := (s.widths[number - 1]?).join

def widthHere (s : Source) (p : Pattern) : Width :=
  p.width fun number => (widthOf s number).getD (.exactly 0)

def closeGroup (number : Nat) (p : Pattern) : Reading Unit :=
  modify fun s => { s with widths := s.widths.set (number - 1) (some (widthHere s p)) }

def nameGroup (name : String) (number : Nat) : Reading Unit := do
  if (← get).names.any (·.1 == name) then fail
  modify fun s => { s with names := (name, number) :: s.names }

def numberNamed (name : String) : Reading Nat := do
  match (← get).names.find? (·.1 == name) with
  | some e => return e.2
  | none => fail

def checkBehind (number : Nat) : Reading Unit := do
  let s ← get
  match s.behind with
  | some before => if number > before || (widthOf s number).isNone then fail
  | none => return

def checkClosed (number : Nat) : Reading Unit := do
  if (widthOf (← get) number).isNone then fail
  checkBehind number

def lookingBehind {α : Type} (r : Reading α) : Reading α := do
  let before := (← get).behind
  modify fun s => { s with behind := some (before.getD s.widths.length) }
  let a ← r
  modify fun s => { s with behind := before }
  return a

end Reading

end Mockup.Text.Pattern
