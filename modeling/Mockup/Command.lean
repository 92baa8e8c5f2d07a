import Mockup.Command.Fetch
import Mockup.Screen
import Mockup.Element.Outline
import Mockup.Watch

namespace Mockup.Command

/-- Where screens are written, and their indentation. Either may be given as something else. -/
structure Output where
  directory : Option String
  indent : Option Screen.Indent

def defaultDirectory : String := "./screen-ir-out"

def directoryOf (given : Option String) (entry : Option Value) : Option String :=
  match given? given, entry.filter fun v => !v.isVacant with
  | some directory, _ => some directory
  | none, none => some defaultDirectory
  | none, some (.text directory) => some directory
  | none, some _ => none

def indentOf : Option Value → Option Screen.Indent
  | none => some (.width 2)
  | some .null => some .none
  | some (.number (.int n)) => some (.width n)
  | some (.bool b) => some (.width (if b then 1 else 0))
  | some (.text unit) => some (.unit unit)
  | some _ => none

def outputOf (s : Settings) (given : Option String) : Except Crash Output := do
  let entries ← sectionEntries s .output
  return ⟨directoryOf given (Fields.get? "dir" entries), indentOf (Fields.get? "indent" entries)⟩

def nameText (name : Option String) : String := name.getD "None"

def countText (n : Nat) : String := String.ofList (Number.numeral n)

def numberText (n : Number) : String := String.ofList (n.text .plain)

def summary (s : Screen) (count : Nat) : List String :=
  let d := s.detection
  let found :=
    if d.listings.isEmpty && d.repetitions.isEmpty then []
    else ["   🔁 " ++ countText d.listings.length ++ " list(s), " ++
      countText d.repetitions.length ++ " repeated component(s)"]
  let modal :=
    match d.modal with
    | some (some m) =>
      ["   🪟 Modal overlay: " ++ m.kind.name ++ " (" ++ nameText m.contentName ++ ")"]
    | _ => []
  let safeArea :=
    match d.safeArea with
    | some a =>
      if a.hasLayout then
        ["   📱 Safe area insets: top=" ++ numberText a.insets.top ++ " bottom=" ++
          numberText a.insets.bottom]
      else []
    | none => []
  ("   ✅ " ++ countText count ++ " IR nodes, " ++ countText s.bundle.styles.length ++ " styles") ::
    found ++ modal ++ safeArea

def screenOf (s : Settings) (d : Document) : Action Screen :=
  orCrash .lowering do Screen.ofDocument (← s.options) d

def countElements (s : Screen) : Action Nat := do
  return (← orCrash .lowering s.root.preorder).length

def fileName (s : Screen) : String := ({} : Naming).identifier (s.name.getD "") ++ ".ir.json"

/-- Writes the screen of a document. The file is opened before the screen is in writing. -/
def save (s : Settings) (o : Output) (d : Document) : Action Unit := do
  let screen ← screenOf s d
  let some directory := o.directory | throw (.misplacedEntry .output "dir")
  let path := Path.ofText directory
  let files ← orCrash .output ((← get).files.write path (fileName screen) "")
  let some indent := o.indent | throw (.misplacedEntry .output "indent")
  let content ← orCrash .lowering (screen.write indent)
  let files ← orCrash .output (files.write path (fileName screen) (content ++ "\n"))
  modify fun session => { session with files }
  sayAll (summary screen (← countElements screen))
  say ("   📄 Saved to " ++ (path.child (fileName screen)).text)

def lower (s : Settings) (o : Origin) (output : Option String) : Action Nat := do
  let some d ← documentFrom o s | return 1
  say ("🚀 Lowering '" ++ nameText d.item.name ++ "' (" ++ d.item.id.shown ++ ")")
  let output ← orCrash id (outputOf s output)
  save s output d
  return 0

def preview (s : Settings) (o : Origin) : Action Nat := do
  let some d ← documentFrom o s | return 1
  say ("👁️  Preview IR tree: " ++ nameText d.item.name)
  let screen ← screenOf s d
  say (← orCrash .lowering (screen.root.outline 0))
  say ("\nTotal nodes: " ++ countText (← countElements screen))
  return 0

def saveAgain (s : Settings) (o : Output) (path : String) : Action Unit := do
  match ← loadDocument path with
  | .ok d => save s o d
  | .error message => say ("   ⚠️  無法讀取 '" ++ path ++ "'：" ++ message)

/-- What happens while a file is watched: files are written or removed, and an event comes in. -/
structure Happening where
  changes : List (String × Option (Option String)) := []
  event : FileEvent

def applyChange (f : Files) (change : String × Option (Option String)) : Files :=
  let p := (Path.ofText change.1).place
  match change.2 with
  | some content => f.put p content
  | none => f.erase p

def handle (s : Settings) (o : Output) (w : Watch) (h : Happening) : Action Watch := do
  modify fun session => { session with files := h.changes.foldl applyChange session.files }
  let (w, counts) ← orCrash (fun f => .lowering (.number f)) (w.observe h.event)
  if counts then
    say (Watch.notice h.event)
    saveAgain s o h.event.path
  return w

def startWatch (s : Settings) (file : String) (output : Option String) :
    Action (Option (Output × Watch)) := do
  let path := Path.ofText file
  if !(← get).files.has path then
    say ("❌ 找不到 '" ++ path.text ++ "'")
    return none
  let output ← orCrash id (outputOf s output)
  sayAll ["👀 Watching '" ++ path.text ++ "' for changes...",
    "   Output: " ++ output.directory.getD "", "   Press Ctrl+C to stop."]
  saveAgain s output path.text
  return some (output, { target := some path.place })

def watch (s : Settings) (file : String) (output : Option String) (happenings : List Happening) :
    Action Nat := do
  let some (output, w) ← startWatch s file output | return 1
  let _ ← happenings.foldlM (handle s output) w
  say "\n👋 Stopping watch..."
  return 0

def versionLine : String := "screen-ir 0.1.0"

def usage : Option String → String
  | some "lower" =>
    "usage: screen-ir lower [-h] [--url URL] [--file-key FILE_KEY] [--node-id NODE_ID]\n" ++
      "                       [--output OUTPUT]\n                       [input]"
  | some "preview" =>
    "usage: screen-ir preview [-h] [--url URL] [--file-key FILE_KEY] [--node-id NODE_ID]\n" ++
      "                         [input]"
  | some _ => "usage: screen-ir watch [-h] [--output OUTPUT] input"
  | none =>
    "usage: screen-ir [-h] [--config CONFIG] [--version] [--verbose]\n" ++
      "                 \x7blower,preview,watch\x7d ..."

def stop : Stop → Action Nat
  | .help command => do
    say (usage command)
    return 0
  | .version => do
    say versionLine
    return 0
  | .misuse => return 2

def carryOut (s : Settings) (happenings : List Happening) : Option Order → Action Nat
  | some (.lower origin output) => lower s origin output
  | some (.preview origin) => preview s origin
  | some (.watch file output) => watch s file output happenings
  | none => stop (.help none)

def run (line : List String) (happenings : List Happening) : Action Nat := do
  match Arguments.ofList line with
  | .error e => stop e
  | .ok arguments =>
    let s ← loadSettings arguments.config
    carryOut s happenings arguments.order

end Mockup.Command
