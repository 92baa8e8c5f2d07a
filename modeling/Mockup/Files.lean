import Mockup.Path

namespace Mockup

/-- Files by their place, each with its text unless that cannot be read. -/
structure Files where
  entries : List (Place × Option String) := []

namespace Files

inductive Fault where
  | noSuchFile (path : Path)
  | fileExists (path : Path)
  | notADirectory (path : Path)
  | isADirectory (path : Path)
  deriving DecidableEq

def Fault.message : Fault → String
  | .noSuchFile p => "[Errno 2] No such file or directory: " ++ p.quoted
  | .fileExists p => "[Errno 17] File exists: " ++ p.quoted
  | .notADirectory p => "[Errno 20] Not a directory: " ++ p.quoted
  | .isADirectory p => "[Errno 21] Is a directory: " ++ p.quoted

def get? (f : Files) (p : Place) : Option (Option String) :=
  (f.entries.find? fun e => e.1 = p).map (·.2)

def isFile (f : Files) (p : Place) : Bool := (f.get? p).isSome

def isDirectory (f : Files) (p : Place) : Bool :=
  p.names.isEmpty || f.entries.any fun e => e.1.isBelow p

def erase (f : Files) (p : Place) : Files := ⟨f.entries.filter fun e => e.1 != p⟩

def put (f : Files) (p : Place) (content : Option String) : Files :=
  ⟨(f.erase p).entries ++ [(p, content)]⟩

def enter (f : Files) (path : Path) (p : Place) (name : String) : Except Fault Place :=
  if f.isDirectory p then .ok (p.enter name)
  else if f.isFile p then .error (.notADirectory path)
  else .error (.noSuchFile path)

def locate (f : Files) (path : Path) : Except Fault Place :=
  path.parts.foldlM (f.enter path) path.start

def read (f : Files) (path : Path) : Except Fault (Option String) := do
  let p ← f.locate path
  match f.get? p with
  | some content => return content
  | none => if f.isDirectory p then .error (.isADirectory path) else .error (.noSuchFile path)

def has (f : Files) (path : Path) : Bool :=
  match f.locate path with
  | .ok p => f.isFile p || f.isDirectory p
  | .error _ => false

def makeDirectory (f : Files) (path : Path) : Except Fault Unit :=
  if f.isFile path.place then .error (.fileExists path)
  else if path.through.any f.isFile then .error (.notADirectory path)
  else .ok ()

def write (f : Files) (directory : Path) (name content : String) : Except Fault Files := do
  f.makeDirectory directory
  let path := directory.child name
  if f.isDirectory path.place then .error (.isADirectory path)
  else return f.put path.place (some content)

end Files

end Mockup
