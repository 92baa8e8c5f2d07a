import Mockup.Layer
import Mockup.Fault
import Mockup.Value.Reader

namespace Mockup.Document

inductive SourceFault where
  | unreadable
  | notAnObject (path : String)
  | noDocument
  | document (fault : Fault)
  deriving DecidableEq

/-- A placeholder for what a decoder says of its fault. Its own message, which tells the position and
the reason, is not modelled. -/
def unreadableNotice : String := "<decode error>"

/-- What is reported about a fault of a file. Most faults of the document in it are not reported. -/
def SourceFault.report : SourceFault → Result String
  | .unreadable => .ok unreadableNotice
  | .notAnObject path => .ok ("'" ++ path ++ "' 應為 JSON 物件")
  | .noDocument => .ok "nodes 回應中沒有任何 document"
  | .document (.number .undefined) => .ok (Fault.number .undefined).message
  | .document fault => .error fault

/-- The document in an entry of an answer. An entry that says anything has to be an object. -/
def entryDocument? : Value → Except SourceFault (Option Value)
  | .object fields => .ok ((Fields.get? "document" fields).filter fun v => !v.isVacant)
  | entry => if entry.isVacant then .ok none else .error (.document .notAnObject)

/-- An object with an id is a document itself. Any other may hold nodes, the first document of which
counts, or a document. -/
def unwrap (fields : Fields) : Except SourceFault Value := do
  if Fields.has fields "id" then return .object fields
  match Fields.get? "nodes" fields, Fields.get? "document" fields with
  | some (.object nodes), _ =>
    match ← nodes.findSomeM? fun entry => entryDocument? entry.2 with
    | some v => return v
    | none => .error .noDocument
  | _, some v => return v
  | _, none => return .object fields

/-- The document that a text holds. One in which half a surrogate pair stands anywhere is not taken:
it could neither be printed nor saved. -/
def ofText (path text : String) : Except SourceFault Document :=
  match Value.read? text with
  | none => .error .unreadable
  | some (.object fields) => do
    let v ← unwrap fields
    if Value.isSpelled text then (ofValue v).mapError .document
    else .error (.document .halfPair)
  | some _ => .error (.notAnObject path)

end Mockup.Document
