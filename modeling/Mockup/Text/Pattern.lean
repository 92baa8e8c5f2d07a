import Mockup.Text.Scan

namespace Mockup.Text

/-- A repetition takes as much as it can, as little as it can, or as much as it can and gives
nothing back. -/
inductive Greed where
  | greedy
  | lazy
  | possessive

inductive Pattern where
  | empty
  | one (test : Char → Bool)
  | anchor (test : List Char → Nat → Bool)
  | seq (p q : Pattern)
  | alt (p q : Pattern)
  | rep (p : Pattern) (least : Nat) (most : Option Nat) (greed : Greed)
  /-- keeps what it matches under a number -/
  | group (number : Nat) (p : Pattern)
  /-- the text of a group once more -/
  | again (number : Nat) (same : Char → Char → Bool)
  /-- one or the other, by whether a group has a text -/
  | given (number : Nat) (p q : Pattern)
  /-- only the first way to match counts -/
  | atomic (p : Pattern)
  /-- asks whether a match starts so many characters back, and takes nothing -/
  | look (back : Nat) (wanted : Bool) (p : Pattern)

namespace Pattern

structure Span where
  start : Option Nat := none
  finish : Option Nat := none

/-- How far a match has come, and what its groups have met. -/
structure Trace where
  position : Nat := 0
  spans : Nat → Span := fun _ => {}

namespace Trace

def update (t : Trace) (number : Nat) (f : Span → Span) : Trace :=
  { t with spans := fun n => if n = number then f (t.spans n) else t.spans n }

def enter (t : Trace) (number : Nat) : Trace :=
  t.update number fun s => { s with start := some t.position }

def leave (t : Trace) (number : Nat) : Trace :=
  t.update number fun s => { s with finish := some t.position }

def advance (t : Trace) (count : Nat) : Trace := { t with position := t.position + count }

def textOf? (cs : List Char) (t : Trace) (number : Nat) : Option (List Char) :=
  match t.spans number with
  | ⟨some start, some finish⟩ =>
    if start ≤ finish then some ((cs.drop start).take (finish - start)) else none
  | _ => none

end Trace

abbrev Rest := Trace → Option Trace

abbrev Step := Trace → Rest → Option Trace

def times (step : Step) (rest : Rest) : Nat → Rest
  | 0, t => rest t
  | n + 1, t => step t (times step rest n)

/-- At most so many steps, and rather more. A step that took nothing is the last one. -/
def asMany (step : Step) (rest : Rest) : Nat → Option Nat → Rest
  | 0, _, t => rest t
  | n + 1, before, t =>
    if before = some t.position then rest t
    else step t (asMany step rest n (some t.position)) <|> rest t

def asFew (step : Step) (rest : Rest) : Nat → Option Nat → Rest
  | 0, _, t => rest t
  | n + 1, before, t =>
    rest t <|>
      if before = some t.position then none
      else step t (asFew step rest n (some t.position))

def firstTimes (step : Step) : Nat → Trace → Option Trace
  | 0, t => some t
  | n + 1, t => (step t some).bind (firstTimes step n)

def firstMany (step : Step) : Nat → Option Nat → Trace → Trace
  | 0, _, t => t
  | n + 1, before, t =>
    if before = some t.position then t
    else match step t some with
      | some u => firstMany step n (some t.position) u
      | none => t

def repeated (step : Step) (rest : Rest) (greed : Greed) (least more : Nat) : Rest :=
  match greed with
  | .greedy => times step (asMany step rest more none) least
  | .lazy => times step (asFew step rest more none) least
  | .possessive => fun t =>
    (firstTimes step least t).bind fun u => rest (firstMany step more none u)

def groups : Pattern → Nat
  | seq p q | alt p q | given _ p q => p.groups + q.groups
  | group _ p => p.groups + 1
  | rep p _ _ _ | atomic p | look _ _ p => p.groups
  | empty | one _ | anchor _ | again _ _ => 0

def standsAt (same : Char → Char → Bool) : List Char → List Char → Bool
  | [], _ => true
  | _ :: _, [] => false
  | a :: as, b :: bs => same a b && standsAt same as bs

/-- A match that goes on with what follows. Of a repetition, more steps than there are characters
and groups lead nowhere new. -/
def find (cs : List Char) : Pattern → Step
  | empty, t, rest => rest t
  | one test, t, rest => if cs[t.position]?.any test then rest (t.advance 1) else none
  | anchor test, t, rest => if test cs t.position then rest t else none
  | seq p q, t, rest => find cs p t fun u => find cs q u rest
  | alt p q, t, rest => find cs p t rest <|> find cs q t rest
  | rep p least most greed, t, rest =>
    let enough := cs.length + p.groups + 2
    let more := match most with
      | none => enough
      | some most => min (most - least) enough
    repeated (find cs p) rest greed (min least enough) more t
  | group number p, t, rest => find cs p (t.enter number) fun u => rest (u.leave number)
  | again number same, t, rest =>
    match t.textOf? cs number with
    | some text =>
      if standsAt same text (cs.drop t.position) then rest (t.advance text.length) else none
    | none => none
  | given number p q, t, rest =>
    if (t.textOf? cs number).isSome then find cs p t rest else find cs q t rest
  | atomic p, t, rest => (find cs p t some).bind rest
  | look back wanted p, t, rest =>
    let seen :=
      if back ≤ t.position then find cs p { t with position := t.position - back } some else none
    match seen, wanted with
    | some u, true => rest { u with position := t.position }
    | none, false => rest t
    | _, _ => none

def matchesStart (p : Pattern) (cs : List Char) : Bool := (find cs p {} some).isSome

/-- How many characters a match takes; there may be no most. -/
structure Width where
  least : Nat
  most : Option Nat

namespace Width

def exactly (n : Nat) : Width := ⟨n, some n⟩

def both (v w : Width) : Width := ⟨v.least + w.least, v.most.bind fun m => w.most.map (m + ·)⟩

def either (v w : Width) : Width := ⟨min v.least w.least, v.most.bind fun m => w.most.map (max m)⟩

def repeated (w : Width) (least : Nat) (most : Option Nat) : Width :=
  ⟨w.least * least,
    match most, w.most with
    | some 0, _ | _, some 0 => some 0
    | some n, some m => some (m * n)
    | _, _ => none⟩

def fixed? (w : Width) : Option Nat := if w.most = some w.least then some w.least else none

end Width

def width (groups : Nat → Width) : Pattern → Width
  | empty | anchor _ | look _ _ _ => .exactly 0
  | one _ => .exactly 1
  | seq p q => (p.width groups).both (q.width groups)
  | alt p q | given _ p q => (p.width groups).either (q.width groups)
  | rep p least most _ => (p.width groups).repeated least most
  | group _ p | atomic p => p.width groups
  | again number _ => groups number

def atStart (_ : List Char) (i : Nat) : Bool := i == 0

def atLineStart (cs : List Char) (i : Nat) : Bool := i == 0 || cs[i - 1]? == some '\n'

def atFinish (cs : List Char) (i : Nat) : Bool := Text.atEnd (cs.drop i)

def atLineFinish (cs : List Char) (i : Nat) : Bool := cs[i]?.all (· == '\n')

def atVeryEnd (cs : List Char) (i : Nat) : Bool := (cs.drop i).isEmpty

def atBoundary (isWord : Char → Bool) (cs : List Char) (i : Nat) : Bool :=
  (i != 0 && cs[i - 1]?.any isWord) != cs[i]?.any isWord

def offBoundary (isWord : Char → Bool) (cs : List Char) (i : Nat) : Bool :=
  !cs.isEmpty && !atBoundary isWord cs i

end Pattern

end Mockup.Text
