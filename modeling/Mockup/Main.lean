import Mockup.Command

namespace Mockup.Program

open Command

def filesOf : Order → List String
  | .lower origin _ | .preview origin => origin.file.toList
  | .watch file _ => [file]

def filesRead (line : List String) : List String :=
  match Arguments.ofList line with
  | .ok arguments => arguments.config :: arguments.order.toList.flatMap filesOf
  | .error _ => []

def textOfBytes (bytes : ByteArray) : Option String :=
  (Text.Utf8.decode? bytes.toList).map String.ofList

def readFile (files : Files) (path : String) : IO Files := do
  let place := (Path.ofText path).place
  try return files.put place (textOfBytes (← IO.FS.readBinFile path))
  catch _ => return files.erase place

def writeFiles (before after : Files) : IO Unit := do
  for (place, content) in after.entries do
    if before.get? place != some content then
      let directory := { place with names := place.names.dropLast }
      if !directory.names.isEmpty then IO.FS.createDirAll directory.text
      IO.FS.writeFile place.text (content.getD "")

def perform {α : Type} (action : Action α) (session : Session) : IO (Option (α × Session)) := do
  match action.run session with
  | .ok (a, later) =>
    IO.print later.printed
    (← IO.getStdout).flush
    writeFiles session.files later.files
    return some (a, { later with printed := "" })
  | .error _ =>
    IO.eprintln "the command cannot be carried out"
    return none

def modifiedAt (path : String) : IO (Option IO.FS.SystemTime) := do
  try return some (← (← IO.FS.realPath path).metadata).modified
  catch _ => return none

/-- Looks at a file once a second and handles it when it has changed. -/
partial def watchOn (s : Settings) (o : Output) (path : String) (last : Option IO.FS.SystemTime)
    (w : Watch) (session : Session) : IO Unit := do
  IO.sleep 1000
  let now ← modifiedAt path
  if now == last then watchOn s o path last w session
  else
    let files ← readFile session.files path
    let event : FileEvent := { path, time := .fraction (← IO.monoMsNow) 1000 }
    match ← perform (handle s o w { event }) { session with files } with
    | some (w, session) => watchOn s o path now w session
    | none => return ()

def watchFile (config file : String) (output : Option String) (session : Session) : IO Nat := do
  match ← perform (loadSettings config) session with
  | none => return 1
  | some (s, session) =>
    match ← perform (startWatch s file output) session with
    | some (some (o, w), session) =>
      watchOn s o file (← modifiedAt file) w session
      return 1
    | _ => return 1

def start (line : List String) : IO Nat := do
  let files ← (filesRead line).foldlM readFile {}
  let token ← IO.getEnv "FIGMA_TOKEN"
  let session : Session := { files, token, replies := [.failed "no connection"] }
  match Arguments.ofList line with
  | .ok ⟨config, some (.watch file output)⟩ => watchFile config file output session
  | _ =>
    match ← perform (run line []) session with
    | some (code, _) => return code
    | none => return 1

end Mockup.Program

def main (line : List String) : IO UInt32 := do
  return UInt32.ofNat (← Mockup.Program.start line)
