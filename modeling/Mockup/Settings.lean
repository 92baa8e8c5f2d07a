import Mockup.Screen
import Mockup.Address
import Mockup.Value.Reader

namespace Mockup

structure Settings where
  entries : Fields := []

namespace Settings

inductive Topic where
  | figma
  | normalize
  | detection
  | output
  deriving DecidableEq

namespace Topic

def all : List Topic := [.figma, .normalize, .detection, .output]

def name : Topic → String
  | .figma => "figma"
  | .normalize => "normalize"
  | .detection => "detection"
  | .output => "output"

def entryNames : Topic → List String
  | .figma => ["fileKey", "nodeId", "personalAccessToken"]
  | .normalize => ["excludeIds", "ignorePatterns", "unwrapGroups"]
  | .detection => ["modalOverlay", "safeArea"]
  | .output => ["dir", "indent"]

end Topic

inductive Warning where
  /-- a file holds something that is no object -/
  | notSettings (path : String)
  | unknownTopic (name : String)
  | notAnObject (topic : Topic) (found : Value)
  | unknownEntry (topic : Topic) (name : String)
  | notTexts (name : String)
  | notTruth (topic : Topic) (name : String) (found : Value)
  | notInteger (found : Value)
  /-- the id of a node is written as in an address -/
  | dashedId (id : String)

def kindName : Value → String
  | .null => "NoneType"
  | .bool _ => "bool"
  | .number (.int _) => "int"
  | .number (.real _) => "float"
  | .text _ => "str"
  | .list _ => "list"
  | .object _ => "dict"

def topicNames : List String := ["detection", "figma", "normalize", "output"]

def commaList (names : List String) : String := ", ".intercalate names

namespace Warning

def message : Warning → String
  | .notSettings path => "'" ++ path ++ "' 格式錯誤，應為 JSON 物件，回傳空設定。"
  | .unknownTopic name =>
    "未知頂層欄位 '" ++ name ++ "'（已知欄位：" ++ commaList topicNames ++ "）"
  | .notAnObject topic found => "[" ++ topic.name ++ "] 應為物件，目前是 " ++ kindName found
  | .unknownEntry topic name =>
    "[" ++ topic.name ++ "] 未知欄位 '" ++ name ++ "'（已知欄位：" ++
      commaList topic.entryNames ++ "）"
  | .notTexts name => "normalize." ++ name ++ " 應為字串陣列"
  | .notTruth topic name found =>
    topic.name ++ "." ++ name ++ " 應為布林值，目前是 " ++ kindName found
  | .notInteger found => "output.indent 應為整數，目前是 " ++ kindName found
  | .dashedId id =>
    "figma.nodeId '" ++ id ++ "' 看起來是 URL 格式，API 需要 '" ++ Address.nodeId id.toList ++ "'"

def line (w : Warning) : String := "   ⚠️  [config] " ++ w.message

end Warning

/-- The entries of a section; none when it is no object. -/
def topic (s : Settings) (t : Topic) : Fields := Fields.nested s.entries t.name

def get? (s : Settings) (t : Topic) (name : String) : Option Value :=
  match Fields.get? name (s.topic t) with
  | some .null | none => none
  | some v => some v

def isText : Value → Bool
  | .text _ => true
  | _ => false

def isTextList : Value → Bool
  | .list items => items.all isText
  | _ => false

def isTruth : Value → Bool
  | .bool _ => true
  | _ => false

def isInteger : Value → Bool
  | .number (.int _) => true
  | _ => false

def topicWarnings (s : Settings) (t : Topic) : List Warning :=
  match Fields.get? t.name s.entries with
  | none => []
  | some (.object fields) =>
    ((Fields.names fields).filter fun n => !t.entryNames.contains n).map (.unknownEntry t)
  | some v => [.notAnObject t v]

def entryWarning (s : Settings) (t : Topic) (name : String) (good : Value → Bool)
    (warning : Value → Warning) : List Warning :=
  match s.get? t name with
  | none => []
  | some v => if good v then [] else [warning v]

def isDashed (id : String) : Bool := id.toList.contains '-' && !id.toList.contains ':'

def idWarning (s : Settings) : List Warning :=
  match s.get? .figma "nodeId" with
  | some (.text id) => if isDashed id then [.dashedId id] else []
  | _ => []

def warnings (s : Settings) : List Warning :=
  ((Fields.names s.entries).filter fun n => !topicNames.contains n).map .unknownTopic ++
    Topic.all.flatMap s.topicWarnings ++
    s.entryWarning .normalize "ignorePatterns" isTextList (fun _ => .notTexts "ignorePatterns") ++
    s.entryWarning .normalize "excludeIds" isTextList (fun _ => .notTexts "excludeIds") ++
    s.entryWarning .normalize "unwrapGroups" isTruth (.notTruth .normalize "unwrapGroups") ++
    s.entryWarning .detection "safeArea" isTruth (.notTruth .detection "safeArea") ++
    s.entryWarning .detection "modalOverlay" isTruth (.notTruth .detection "modalOverlay") ++
    s.entryWarning .output "indent" isInteger .notInteger ++ s.idWarning

def ofText? (path text : String) : Option (Settings × List Warning) :=
  (Value.read? text).map fun v =>
    match v with
    | .object fields => (⟨fields⟩, Settings.warnings ⟨fields⟩)
    | _ => ({}, [.notSettings path])

/-- The access token: that of the settings, if any, before that of the environment. -/
def token (s : Settings) (environment : Option String) : Value :=
  match s.get? .figma "personalAccessToken" with
  | some v => if v.isVacant then .text (environment.getD "") else v
  | none => .text (environment.getD "")

def patterns? (s : Settings) : Option (List Value) :=
  match s.get? .normalize "ignorePatterns" with
  | some (.list items) => some (Selection.defaultPatterns.map Value.text ++ items)
  | _ => none

def isAtom : Value → Bool
  | .list _ | .object _ => false
  | _ => true

def patternFault? (v : Value) : Option Fault :=
  if isText v then none else if isAtom v then some .notText else some .notAtom

/-- The ids to be excluded. A text stands for its characters, and an object for its names. -/
def excludedIds (s : Settings) : Result (List Value) :=
  match s.get? .normalize "excludeIds" with
  | some (.text t) => .ok (t.toList.map fun c => .text (String.ofList [c]))
  | some (.list items) => if items.all isAtom then .ok items else .error .notAtom
  | some (.object fields) => .ok ((Fields.names fields).map .text)
  | some v => if v.isVacant then .ok [] else .error .notAList
  | none => .ok []

def allows (s : Settings) (t : Topic) (name : String) : Bool := !Fields.isFalse (s.topic t) name

def options (s : Settings) : Result Options := do
  return {
    ignorePatterns := s.patterns?.map fun vs => (vs.takeWhile isText).filterMap Value.text?
    patternFault := (s.patterns?.getD []).findSome? patternFault?
    excludedIds := (← s.excludedIds).filterMap LayerId.ofValue?
    unwrapGroups := s.allows .normalize "unwrapGroups"
    detectSafeArea := s.allows .detection "safeArea"
    detectModal := s.allows .detection "modalOverlay" }

end Settings

end Mockup
