import Mockup.Text.Scan

namespace Mockup.Command

inductive Setting where
  | config
  | url
  | fileKey
  | nodeId
  | output
  deriving DecidableEq

inductive Effect where
  | set (setting : Setting)
  | verbose
  | help
  | version
  deriving DecidableEq

def Effect.takesValue : Effect → Bool
  | .set _ => true
  | _ => false

structure Switch where
  name : String
  effect : Effect
  deriving DecidableEq

inductive Operand where
  | command
  | file
  | optionalFile
  deriving DecidableEq

structure Grammar where
  switches : List Switch
  operand : Operand

inductive Stop where
  | help (command : Option String)
  | version
  | misuse
  deriving DecidableEq

inductive Word where
  | operand (raw : String)
  | divider
  /-- a switch that the word names, with what follows its name in the word -/
  | switch (raw : String) (found : Switch) (tail : Option (List Char))
  | unknown (raw : String)

def Word.raw : Word → String
  | operand raw | switch raw _ _ | unknown raw => raw
  | divider => "--"

def Word.isDivider : Word → Bool
  | divider => true
  | _ => false

namespace Grammar

def find? (g : Grammar) (name : List Char) : Option Switch :=
  g.switches.find? fun s => s.name.toList == name

def beforeEquals (cs : List Char) : List Char := cs.takeWhile (· != '=')

def afterEquals (cs : List Char) : Option (List Char) :=
  match cs.dropWhile (· != '=') with
  | _ :: value => some value
  | [] => none

def candidates (g : Grammar) (cs : List Char) : List (Switch × Option (List Char)) :=
  match cs with
  | '-' :: '-' :: _ =>
    (g.switches.filter fun s => (beforeEquals cs).isPrefixOf s.name.toList).map fun s =>
      (s, afterEquals cs)
  | _ =>
    (g.switches.filter fun s => s.name.toList == cs.take 2).map fun s => (s, some (cs.drop 2))

def isNegativeNumber (cs : List Char) : Bool :=
  let digits := (cs.drop 1).takeWhile Text.isDecimal
  match (cs.drop 1).dropWhile Text.isDecimal with
  | '.' :: fraction =>
    !(fraction.takeWhile Text.isDecimal).isEmpty &&
      Text.atEnd (fraction.dropWhile Text.isDecimal)
  | rest => !digits.isEmpty && Text.atEnd rest

/-- What a word with a minus sign in front stands for that names no switch in full. -/
def shortened (g : Grammar) (raw : String) (cs : List Char) : Except Stop Word :=
  match g.candidates cs with
  | [(s, tail)] => .ok (.switch raw s tail)
  | _ :: _ :: _ => .error .misuse
  | [] => .ok (if isNegativeNumber cs || cs.contains ' ' then .operand raw else .unknown raw)

def classify (g : Grammar) (raw : String) : Except Stop Word :=
  match raw.toList with
  | '-' :: c :: rest =>
    let cs := '-' :: c :: rest
    match g.find? cs, afterEquals cs, g.find? (beforeEquals cs) with
    | some s, _, _ => .ok (.switch raw s none)
    | none, some value, some s => .ok (.switch raw s (some value))
    | none, _, _ => g.shortened raw cs
  | _ => .ok (.operand raw)

/-- The words of a line. After two minus signs all are operands. -/
def words (g : Grammar) : List String → Except Stop (List Word)
  | [] => .ok []
  | raw :: rest =>
    if raw = "--" then .ok (.divider :: rest.map Word.operand)
    else do
      let w ← g.classify raw
      return w :: (← g.words rest)

end Grammar

structure Line where
  values : List (Setting × String) := []
  verbose : Bool := false
  file : Option String := none
  /-- the command and all words after it -/
  command : Option (List String) := none
  operandGiven : Bool := false
  hasExtras : Bool := false

namespace Line

def apply (l : Line) (effect : Effect) (value : String) : Except Stop Line :=
  match effect with
  | .set setting => .ok { l with values := (setting, value) :: l.values }
  | .verbose => .ok { l with verbose := true }
  | .help => .error (.help none)
  | .version => .error .version

def applyAll (l : Line) (effects : List (Effect × String)) : Except Stop Line :=
  effects.foldlM (fun l e => l.apply e.1 e.2) l

def value? (l : Line) (setting : Setting) : Option String :=
  (l.values.find? fun v => v.1 = setting).map (·.2)

end Line

/-- What a switch does, and how many of the next words it takes. -/
structure Use where
  effects : List (Effect × String)
  taken : Nat := 0

def useBare (s : Switch) (next : List Word) : Except Stop Use :=
  match s.effect.takesValue, next with
  | false, _ => .ok { effects := [(s.effect, "")] }
  | true, .operand raw :: _ => .ok { effects := [(s.effect, raw)], taken := 1 }
  | true, _ => .error .misuse

def isShort (s : Switch) : Bool := s.name.length == 2

/-- The use of a switch that does not end its word. A short one without a value has to be followed
by another switch. -/
def useTailed (g : Grammar) (next : List Word) : Switch → List Char → Except Stop Use
  | s, [] => if s.effect.takesValue then .ok { effects := [(s.effect, "")] } else .error .misuse
  | s, c :: rest =>
    if s.effect.takesValue then .ok { effects := [(s.effect, String.ofList (c :: rest))] }
    else if !isShort s then .error .misuse
    else match g.find? ['-', c] with
      | none => .error .misuse
      | some t =>
        (if rest.isEmpty then useBare t next else useTailed g next t rest).map fun u =>
          { u with effects := (s.effect, "") :: u.effects }

def useOf (g : Grammar) (s : Switch) (tail : Option (List Char)) (next : List Word) :
    Except Stop Use :=
  match tail with
  | none => useBare s next
  | some cs => useTailed g next s cs

/-- The line after the operand at the head of some words, and how many of them it takes; nothing if
no operand is to be taken. -/
def takeOperand? (o : Operand) (l : Line) (ws : List Word) : Except Stop (Option (Line × Nat)) :=
  let lead := (ws.takeWhile Word.isDivider).length
  let l' := { l with operandGiven := true }
  if l.operandGiven then .ok none
  else match o, ws.dropWhile Word.isDivider with
    | .command, .operand _ :: _ =>
      if lead = 0 then .ok (some ({ l' with command := some (ws.map Word.raw) }, ws.length))
      else .error .misuse
    | .command, _ => .ok none
    | _, .operand raw :: rest =>
      .ok (some ({ l' with file := some raw },
        lead + 1 + (rest.takeWhile Word.isDivider).length))
    | .optionalFile, _ => if lead = 0 then .ok none else .ok (some (l', lead))
    | .file, _ => .ok none

/-- Goes through the words of a line; the fuel is at least their number. -/
def readWords (g : Grammar) : Nat → Line → List Word → Except Stop Line
  | _, l, [] => .ok l
  | 0, l, _ :: _ => .ok l
  | fuel + 1, l, .switch _ s tail :: rest => do
    let u ← useOf g s tail rest
    let l ← l.applyAll u.effects
    readWords g fuel l (rest.drop u.taken)
  | fuel + 1, l, .unknown _ :: rest => readWords g fuel { l with hasExtras := true } rest
  | fuel + 1, l, w :: rest => do
    match ← takeOperand? g.operand l (w :: rest) with
    | some (l, taken) => readWords g fuel l (rest.drop (taken - 1))
    | none => readWords g fuel { l with hasExtras := true } rest

def readLine (g : Grammar) (raws : List String) : Except Stop Line := do
  let ws ← g.words raws
  readWords g ws.length {} ws

def helpSwitches : List Switch := [⟨"-h", .help⟩, ⟨"--help", .help⟩]

def mainGrammar : Grammar where
  switches := helpSwitches ++ [⟨"--config", .set .config⟩, ⟨"-c", .set .config⟩,
    ⟨"--version", .version⟩, ⟨"-v", .version⟩, ⟨"--verbose", .verbose⟩]
  operand := .command

def sourceSwitches : List Switch :=
  [⟨"--url", .set .url⟩, ⟨"--file-key", .set .fileKey⟩, ⟨"--node-id", .set .nodeId⟩]

def outputSwitches : List Switch := [⟨"--output", .set .output⟩, ⟨"-o", .set .output⟩]

structure Origin where
  file : Option String := none
  url : Option String := none
  fileKey : Option String := none
  nodeId : Option String := none
  deriving DecidableEq

inductive Order where
  | lower (origin : Origin) (output : Option String)
  | preview (origin : Origin)
  | watch (file : String) (output : Option String)
  deriving DecidableEq

structure Arguments where
  config : String
  order : Option Order
  deriving DecidableEq

def Line.origin (l : Line) : Origin :=
  ⟨l.file, l.value? .url, l.value? .fileKey, l.value? .nodeId⟩

def commands : List (String × Grammar) :=
  [("lower", ⟨helpSwitches ++ sourceSwitches ++ outputSwitches, .optionalFile⟩),
    ("preview", ⟨helpSwitches ++ sourceSwitches, .optionalFile⟩),
    ("watch", ⟨helpSwitches ++ outputSwitches, .file⟩)]

def Line.order? (l : Line) (name : String) : Option Order :=
  if name = "lower" then some (.lower l.origin (l.value? .output))
  else if name = "preview" then some (.preview l.origin)
  else l.file.map fun file => .watch file (l.value? .output)

/-- The order that a command and the words after it give, which may be more than it allows. -/
def readOrder (words : List String) : Except Stop (Order × Bool) :=
  match words with
  | [] => .error .misuse
  | name :: rest =>
    match (commands.find? fun c => c.1 = name).map (·.2) with
    | none => .error .misuse
    | some g =>
      match readLine g rest with
      | .error (.help _) => .error (.help (some name))
      | .error stop => .error stop
      | .ok l =>
        match l.order? name with
        | some order => .ok (order, l.hasExtras)
        | none => .error .misuse

def defaultConfig : String := "screen-ir.config.json"

def Arguments.ofList (raws : List String) : Except Stop Arguments := do
  let l ← readLine mainGrammar raws
  let config := (l.value? .config).getD defaultConfig
  match l.command with
  | none => if l.hasExtras then .error .misuse else .ok ⟨config, none⟩
  | some words => do
    let (order, hasExtras) ← readOrder words
    if l.hasExtras || hasExtras then .error .misuse else .ok ⟨config, some order⟩

end Mockup.Command
