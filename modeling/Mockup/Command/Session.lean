import Mockup.Client
import Mockup.Files
import Mockup.Settings
import Mockup.Layer.Source

namespace Mockup.Command

structure Session where
  files : Files := {}
  replies : List Reply := []
  /-- the access token of the environment -/
  token : Option String := none
  printed : String := ""

inductive Crash where
  | settingsUnreadable
  | settingsUndecodable
  /-- half a surrogate pair stands in the settings -/
  | settingsHalfPair
  | settingsFile (fault : Files.Fault)
  /-- a section of the settings is used as an object but is none -/
  | sectionNotObject (topic : Settings.Topic)
  /-- an entry of the settings is used as something that it is not -/
  | misplacedEntry (topic : Settings.Topic) (name : String)
  | lowering (fault : Fault)
  | client (fault : Client.Fault)
  | output (fault : Files.Fault)
  deriving DecidableEq

abbrev Action := StateT Session (Except Crash)

def say (line : String) : Action Unit := modify fun s =>
  { s with printed := s.printed ++ line ++ "\n" }

def sayAll (lines : List String) : Action Unit := lines.forM say

def orCrash {α ε : Type} (crash : ε → Crash) (r : Except ε α) : Action α :=
  match r with
  | .ok a => pure a
  | .error e => throw (crash e)

def given? (s : Option String) : Option String := s.filter fun s => !s.isEmpty

/-- The settings in a file; there need be none. -/
def loadSettings (path : String) : Action Settings := do
  let files := (← get).files
  let p := Path.ofText path
  if !files.has p then return {}
  match ← orCrash .settingsFile (files.read p) with
  | none => throw .settingsUndecodable
  | some text =>
    match Settings.ofText? path text with
    | none => throw .settingsUnreadable
    | some (settings, warnings) =>
      if !Value.isSpelled text then throw .settingsHalfPair
      sayAll (warnings.map Settings.Warning.line)
      return settings

/-- The section of the settings as an object. Another kind of value cannot be used as one. -/
def sectionEntries (s : Settings) (t : Settings.Topic) : Except Crash Fields :=
  match Fields.get? t.name s.entries with
  | none => .ok []
  | some (.object fields) => .ok fields
  | some _ => .error (.sectionNotObject t)

def loadDocument (path : String) : Action (Except String Document) := do
  match (← get).files.read (Path.ofText path) with
  | .error fault => return .error fault.message
  | .ok none => return .error Document.unreadableNotice
  | .ok (some text) =>
    match Document.ofText path text with
    | .ok d => return .ok d
    | .error fault => return .error (← orCrash .lowering fault.report)

end Mockup.Command
