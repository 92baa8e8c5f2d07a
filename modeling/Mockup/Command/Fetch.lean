import Mockup.Command.Session
import Mockup.Command.Arguments
import Mockup.Value.Writer

namespace Mockup.Command

def reportLine (key id : String) (r : Client.Report) : String :=
  match r.status with
  | some 403 => "❌ Figma API 403：Token 無效或已過期，請重新產生 FIGMA_TOKEN。"
  | some 404 =>
    "❌ Figma API 404：找不到檔案 '" ++ key ++ "' 或節點 '" ++ id ++ "'，請確認 URL / node-id。"
  | some 429 => "❌ Figma API 429：請求過於頻繁，請稍後再試。"
  | _ => "❌ Figma API 錯誤：" ++ r.message

def noTokenLines : List String :=
  ["❌ 請設定 FIGMA_TOKEN 環境變數，或在 " ++ defaultConfig ++
      " 的 figma.personalAccessToken 設定。",
    "   取得方式：Figma → Settings → Personal access tokens → 新增"]

def noNodeLine : String :=
  "❌ 請使用 --url，或以 --file-key / --node-id（或 config 的 figma.fileKey / figma.nodeId）指定節點。"

/-- What the command line gives, or else the entry of the settings that says something. -/
def entryOr (given : Option String) (s : Settings) (name : String) :
    Except Crash (Option Value) := do
  match given? given with
  | some text => return some (.text text)
  | none =>
    return (Fields.get? name (← sectionEntries s .figma)).filter fun v => !v.isVacant

def shown : Value → String
  | .text s => s
  | v => v.canonicalText

/-- The file and the node that are meant; nothing when the address names no file. -/
def target? (o : Origin) (s : Settings) : Action (Option (Option Value × Option Value)) := do
  let key ← entryOr o.fileKey s "fileKey"
  let id ← entryOr o.nodeId s "nodeId"
  match given? o.url with
  | none => return some (key, id)
  | some url =>
    match Address.target url with
    | .ok (key, id) => return some (some (.text key), id.map Value.text)
    | .error (.noFileKey text) =>
      say ("❌ " ++ (Address.Fault.noFileKey text).message)
      return none
    | .error fault => throw (.client (.address fault))

def fetchNode (token : Value) (key id : String) : Action (Option Value) := do
  say ("📥 Fetching " ++ id ++ " from Figma file " ++ key)
  let exchange := Client.fetchNode { token } key id (← get).replies
  modify fun s => { s with replies := exchange.rest }
  match exchange.outcome with
  | .ok v => return some v
  | .error fault =>
    match fault.report? with
    | none => throw (.client fault)
    | some report =>
      say (reportLine key id report)
      return none

def fetch (o : Origin) (s : Settings) : Action (Option Document) := do
  let some (key, id) ← target? o s | return none
  let token := s.token (← get).token
  if token.isVacant then
    sayAll noTokenLines
    return none
  match key, id with
  | some key, some (.text id) =>
    match ← fetchNode token (shown key) (Address.nodeId id.toList) with
    | some v => return some (← orCrash .lowering (Document.ofValue v))
    | none => return none
  | some _, some _ => throw (.misplacedEntry .figma "nodeId")
  | _, _ =>
    say noNodeLine
    return none

def documentFrom (o : Origin) (s : Settings) : Action (Option Document) := do
  match given? o.file with
  | none => fetch o s
  | some path =>
    match ← loadDocument path with
    | .ok d => return some d
    | .error message =>
      say ("❌ 無法讀取 '" ++ path ++ "'：" ++ message)
      return none

end Mockup.Command
