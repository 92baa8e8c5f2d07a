import Mockup.Text.Pattern.Escape

namespace Mockup.Text.Pattern

namespace Reading

def repetitionLimit : Nat := 4294967295

def repetitions (cs : List Char) : Reading (Option Nat) := do
  if cs.isEmpty then return none
  let n := Nat.ofDigitChars 10 cs 0
  if n < repetitionLimit then return some n else throw .tooLarge

/-- The bounds of a repetition in braces after the opening one. Braces with anything else in them
are characters. -/
def bounds : Reading (Option (Nat × Option Nat)) := do
  let start ← get
  let low ← takeWhile Char.isDigit
  let comma ← skip ','
  let high ← if comma then takeWhile Char.isDigit else pure low
  if !(← skip '}') || (low.isEmpty && !comma) then
    set start
    return none
  let least := (← repetitions low).getD 0
  let most ← repetitions high
  if most.any (· < least) then fail
  return some (least, most)

def mark (c : Char) : Reading (Option (Nat × Option Nat)) := do
  if c = '*' then return some (0, none)
  else if c = '+' then return some (1, none)
  else if c = '?' then return some (0, some 1)
  else if c = '{' then bounds
  else return none

def greed : Reading Greed := do
  if ← skip '?' then return .lazy
  else if ← skip '+' then return .possessive
  else return .greedy

/-- An item with bounds after it. What was repeated is not repeated again. -/
def repetition (item : Option Item) (least : Nat) (most : Option Nat) : Reading Item := do
  match item with
  | some item =>
    if !item.repeatable then fail
    return ⟨rep item.pattern least most (← greed), false⟩
  | none => fail

def isName (cs : List Char) : Bool := cs.head?.any isNameStart && cs.all isNamePart

def name (c : Char) : Reading String := do
  let cs ← upTo c
  if isName cs then return String.ofList cs else fail

/-- The number of a group, perhaps with a sign, blanks around it and underscores in it. -/
def groupNumber? (cs : List Char) : Option Nat :=
  let trimmed := trimChars cs
  let pieces := splitOn '_' (if trimmed.head? = some '+' then trimmed.drop 1 else trimmed)
  if pieces.any (·.isEmpty) then none
  else (pieces.flatten.foldlM (fun n c => (decimalValue? c).map (n * 10 + ·)) 0).filter (· != 0)

def condition : Reading Nat := do
  let cs ← upTo ')'
  let number ←
    if isName cs then numberNamed (String.ofList cs)
    else match groupNumber? cs with
      | some n => do
        modify fun s => { s with asked := n :: s.asked }
        pure n
      | none => fail
  checkBehind number
  return number

def scopedFlags (f : Flags) : Reading Flags := do
  let on ← takeWhile Flags.letters.contains
  let minus ← skip '-'
  let off ← if minus then takeWhile Flags.letters.contains else pure []
  expect ':'
  if minus && off.isEmpty || !Flags.areAllowed on off then fail
  return f.changed on off

def gap (f : Flags) (c : Char) : Reading Bool := do
  if !f.spaced then return false
  else if c = '#' then
    modify fun s => { s with left := (past '\n' s.left).getD [] }
    return true
  else return Flags.isGap c

def comment : Reading Unit := do
  match past ')' (← get).left with
  | some cs => modify fun s => { s with left := cs }
  | none => fail

def behind (wanted : Bool) (p : Pattern) : Reading Item := do
  let s ← get
  match (widthHere s p).fixed? with
  | some n =>
    if n > repetitionLimit then set { s with even := false }
    return ⟨look n wanted p, true⟩
  | none =>
    set { s with even := false }
    return ⟨empty, true⟩

mutual

def alternatives : Nat → Flags → Reading Pattern
  | 0, _ => fail
  | fuel + 1, f => do
    let p ← sequence fuel f empty none
    if ← skip '|' then return alt p (← alternatives fuel f)
    else return p

def sequence : Nat → Flags → Pattern → Option Item → Reading Pattern
  | 0, _, _, _ => fail
  | fuel + 1, f, before, last => do
    let all := (last.map fun item => seq before item.pattern).getD before
    match ← peek with
    | none | some '|' | some ')' => return all
    | some c =>
      let _ ← next
      if ← gap f c then sequence fuel f before last
      else match ← mark c with
        | some (least, most) => sequence fuel f before (some (← repetition last least most))
        | none =>
          match ← item fuel f c with
          | some item => sequence fuel f all (some item)
          | none => sequence fuel f before last

/-- The item that starts with a character; a comment is none. -/
def item : Nat → Flags → Char → Reading (Option Item)
  | 0, _, _ => fail
  | fuel + 1, f, c => do
    if c = '\\' then return some (← escape f)
    else if c = '[' then return some (← bracketed f)
    else if c = '.' then return some ⟨one f.any, true⟩
    else if c = '^' then return some ⟨anchor f.start, false⟩
    else if c = '$' then return some ⟨anchor f.finish, false⟩
    else if c = '(' then
      if ← skip '?' then extension fuel f else return some (← capture fuel f none)
    else return some (single f c.toNat)

def enclosed : Nat → Flags → Reading Pattern
  | 0, _ => fail
  | fuel + 1, f => do
    let p ← alternatives fuel f
    expect ')'
    return p

def capture : Nat → Flags → Option String → Reading Item
  | 0, _, _ => fail
  | fuel + 1, f, name => do
    let number ← openGroup
    match name with
    | some name => nameGroup name number
    | none => pure ()
    let p ← enclosed fuel f
    closeGroup number p
    return ⟨group number p, true⟩

def extension : Nat → Flags → Reading (Option Item)
  | 0, _ => fail
  | fuel + 1, f => do
    if ← skip 'P' then
      if ← skip '<' then return some (← capture fuel f (some (← name '>')))
      else if ← skip '=' then return some (← reference f (← numberNamed (← name ')')))
      else fail
    else if ← skip '#' then
      comment
      return none
    else if ← skip '=' then return some ⟨look 0 true (← enclosed fuel f), true⟩
    else if ← skip '!' then return some ⟨look 0 false (← enclosed fuel f), true⟩
    else if ← skip '<' then
      let wanted ← skip '='
      if !wanted then expect '!'
      let p ← lookingBehind (enclosed fuel f)
      return some (← behind wanted p)
    else if ← skip '>' then return some ⟨atomic (← enclosed fuel f), true⟩
    else if ← skip '(' then
      let number ← condition
      let p ← sequence fuel f empty none
      let q ← if ← skip '|' then sequence fuel f empty none else pure empty
      expect ')'
      return some ⟨given number p q, true⟩
    else
      let inner ← scopedFlags f
      return some ⟨← enclosed fuel inner, true⟩

end

end Reading

/-- The regular expression in a text. Each character takes at most four steps of reading. -/
def ofText (text : List Char) (f : Flags := {}) : Except Flaw Pattern := do
  let (p, s) ← (Reading.alternatives (4 * text.length + 4) f).run { left := text }
  if s.left.isEmpty && s.even && s.asked.all (· ≤ s.widths.length) then return p
  else throw .malformed

end Pattern

end Mockup.Text
