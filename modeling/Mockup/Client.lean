import Mockup.Address
import Mockup.Value
import Mockup.Number.Numeral

namespace Mockup

/-- What came back for a request: a status with headers and a content that may be unreadable, or
nothing at all. -/
inductive Reply where
  | failed (reason : String)
  | answered (status : Int) (headers : List (String × String)) (content : Option Value)

structure Client where
  token : Value
  maxAttempts : Int := 3
  backoff : Number := .real (.ofInt 1)
  timeout : Value := .ofInt 30

namespace Client

inductive Step where
  | get (url : String) (parameters : Fields)
  | sleep (seconds : Number)

inductive Fault where
  | unreachable (reason : String)
  | refused (status : Int) (url : String)
  | exhausted (attempts : Int) (url : String)
  | nodeMissing (id key : String)
  | noNodeId
  | address (fault : Address.Fault)
  | unreadable
  /-- the content is not of the shape that an answer has -/
  | malformed
  | number (fault : NumberFault)
  deriving DecidableEq

structure Report where
  message : String
  status : Option Int := none
  deriving DecidableEq

def statusText (i : Int) : String := String.ofList (Number.intText i)

/-- The report of a fault; the others are no fault of the service. -/
def Fault.report? : Fault → Option Report
  | .unreachable reason => some { message := "無法連線到 Figma API：" ++ reason }
  | .refused status url =>
    some ⟨"Figma API 回應 " ++ statusText status ++ "：" ++ url, some status⟩
  | .exhausted attempts url =>
    some { message := "Figma API 重試 " ++ statusText attempts ++ " 次仍失敗：" ++ url }
  | .nodeMissing id key => some ⟨"節點 " ++ id ++ " 不存在於檔案 " ++ key, some 404⟩
  | .noNodeId => some { message := "URL 必須帶 node-id 參數" }
  | .address (.noFileKey text) => some { message := (Address.Fault.noFileKey text).message }
  | .address .brackets | .address (.hiddenSeparator _) => none
  | .unreadable | .malformed | .number _ => none

/-- The steps of a conversation, how it ended, and the replies that are left. -/
structure Exchange where
  log : List Step
  outcome : Except Fault Value
  rest : List Reply

def base : String := "https://api.figma.com/v1"

/-- The server is busy or out of order for a while. -/
def isTransient (status : Int) : Bool := [429, 500, 502, 503, 504].contains status

def isRefusal (status : Int) : Bool := decide (400 ≤ status) && decide (status < 600)

/-- The pause that a reply asks for. Of several headers of one name the last counts. -/
def retryAfter? (headers : List (String × String)) : Option Number :=
  (headers.reverse.find? fun h => Text.lower h.1 = "retry-after").bind fun h =>
    (Number.realOfText? h.2).map .real

/-- The pause after an attempt: the one asked for, or twice as long after each attempt. -/
def pause (c : Client) (headers : List (String × String)) (attempt : Nat) : Number.Result Number :=
  match retryAfter? headers with
  | some seconds => .ok seconds
  | none => c.backoff.mul (.int (Nat.pow 2 (attempt - 1)))

def settle (url : String) (status : Int) (content : Option Value) : Except Fault Value :=
  if isRefusal status then .error (.refused status url)
  else match content with
    | some v => .ok v
    | none => .error .unreadable

/-- The attempts that are left, from the given one on. -/
def attempts (c : Client) (url : String) (parameters : Fields) :
    Nat → Nat → List Reply → Exchange
  | 0, _, replies => ⟨[], .error (.exhausted c.maxAttempts url), replies⟩
  | _ + 1, _, [] => ⟨[.get url parameters], .error (.unreachable ""), []⟩
  | _ + 1, _, .failed reason :: rest =>
    ⟨[.get url parameters], .error (.unreachable reason), rest⟩
  | left + 1, attempt, .answered status headers content :: rest =>
    if isTransient status && left != 0 then
      match c.pause headers attempt with
      | .error f => ⟨[.get url parameters], .error (.number f), rest⟩
      | .ok seconds =>
        let later := c.attempts url parameters left (attempt + 1) rest
        { later with log := .get url parameters :: .sleep seconds :: later.log }
    else ⟨[.get url parameters], settle url status content, rest⟩

def request (c : Client) (path : String) (parameters : Fields) (replies : List Reply) : Exchange :=
  c.attempts (base ++ path) parameters c.maxAttempts.toNat 1 replies

def joinIds (ids : List String) : Value := .text (",".intercalate ids)

def fileNodes (c : Client) (key : String) (ids : List String) (replies : List Reply) : Exchange :=
  c.request ("/files/" ++ key ++ "/nodes") [("ids", joinIds ids)] replies

def images (c : Client) (key : String) (ids : List String) (format scale : Value)
    (replies : List Reply) : Exchange :=
  c.request ("/images/" ++ key) [("ids", joinIds ids), ("format", format), ("scale", scale)]
    replies

def entry? (v : Value) (name : String) : Except Fault (Option Value) :=
  match v with
  | .object fields => .ok ((Fields.get? name fields).filter fun v => !v.isVacant)
  | _ => .error .malformed

def documentOf (key id : String) (answer : Value) : Except Fault Value := do
  let some nodes ← entry? answer "nodes" | .error (.nodeMissing id key)
  let some node ← entry? nodes id | .error (.nodeMissing id key)
  let some document ← entry? node "document" | .error (.nodeMissing id key)
  return document

def fetchNode (c : Client) (key id : String) (replies : List Reply) : Exchange :=
  let e := c.fileNodes key [id] replies
  { e with outcome := e.outcome.bind (documentOf key id) }

def fetchAt (c : Client) (address : String) (replies : List Reply) : Exchange :=
  match Address.target address with
  | .error f => ⟨[], .error (.address f), replies⟩
  | .ok (key, some id) => c.fetchNode key id replies
  | .ok (_, none) => ⟨[], .error .noNodeId, replies⟩

end Client

end Mockup
