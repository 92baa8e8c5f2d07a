import Mockup.Number

namespace Mockup

inductive Value where
  | null
  | bool (b : Bool)
  | number (n : Number)
  | text (s : String)
  | list (items : List Value)
  | object (fields : List (String × Value))

abbrev Fields := List (String × Value)

namespace Fields

variable {α : Type}

def get? (name : String) : List (String × α) → Option α
  | [] => none
  | (n, a) :: rest => if n = name then some a else get? name rest

def has (fields : List (String × α)) (name : String) : Bool := (get? name fields).isSome

def names (fields : List (String × α)) : List String := fields.map (·.1)

/-- A name that is there keeps its place; a new one comes last. -/
def put (fields : List (String × α)) (name : String) (a : α) : List (String × α) :=
  match fields with
  | [] => [(name, a)]
  | (n, b) :: rest => if n = name then (n, a) :: rest else (n, b) :: put rest name a

def putAll (fields : List (String × α)) (more : List (String × α)) : List (String × α) :=
  more.foldl (fun acc field => put acc field.1 field.2) fields

def erase (fields : List (String × α)) (name : String) : List (String × α) :=
  fields.filter (fun field => field.1 != name)

def text? (fields : Fields) (name : String) : Option String :=
  match get? name fields with
  | some (.text s) => some s
  | _ => none

/-- The text under a name. The default stands for a missing entry, not for a null one. -/
def textOr? (fields : Fields) (name default : String) : Option String :=
  match get? name fields with
  | none => some default
  | some (.text s) => some s
  | some _ => none

def textOr (fields : Fields) (name default : String) : String :=
  match get? name fields with
  | some (.text s) => if s.isEmpty then default else s
  | _ => default

def number? (fields : Fields) (name : String) : Option Number :=
  match get? name fields with
  | some (.number n) => some n
  | _ => none

/-- The number under a name. The default stands for a missing entry, not for a null one. -/
def numberOr? (fields : Fields) (name : String) (default : Number) : Option Number :=
  match get? name fields with
  | none => some default
  | some (.number n) => some n
  | some _ => none

def numberOr (fields : Fields) (name : String) (default : Number) : Number :=
  (number? fields name).getD default

def nonzeroOr (fields : Fields) (name : String) (default : Number) : Number :=
  match number? fields name with
  | some n => if n.isZero then default else n
  | none => default

def items (fields : Fields) (name : String) : List Value :=
  match get? name fields with
  | some (.list items) => items
  | _ => []

def nested (fields : Fields) (name : String) : Fields :=
  match get? name fields with
  | some (.object fields) => fields
  | _ => []

def isFalse (fields : Fields) (name : String) : Bool :=
  match get? name fields with
  | some (.bool false) => true
  | _ => false

/-- Fields in the order in which their names first came, each with the last value given. -/
def ofList (fields : List (String × α)) : List (String × α) := putAll [] fields

end Fields

namespace Value

instance : Inhabited Value := ⟨.null⟩

def ofInt (i : Int) : Value := .number (.int i)

def isVacant : Value → Bool
  | .null => true
  | .bool b => !b
  | .number n => n.isZero
  | .text s => s.isEmpty
  | .list items => items.isEmpty
  | .object fields => fields.isEmpty

def fields : Value → Fields
  | .object fields => fields
  | _ => []

def get? (v : Value) (name : String) : Option Value := Fields.get? name v.fields

def items : Value → List Value
  | .list items => items
  | _ => []

def text? : Value → Option String
  | .text s => some s
  | _ => none

def number? : Value → Option Number
  | .number n => some n
  | _ => none

def texts (names : List String) : Value := .list (names.map .text)

def ofNumber? (n : Option Number) : Value := (n.map Value.number).getD .null

def ofText? (s : Option String) : Value := (s.map Value.text).getD .null

def record (parts : List (String × Option Value)) : Value :=
  .object (parts.filterMap fun part => part.2.map fun v => (part.1, v))

mutual

def normalize : Value → Value
  | .number n => .number n.normalize
  | .list items => .list (normalizeItems items)
  | .object fields => .object (normalizeFields fields)
  | v => v

def normalizeItems : List Value → List Value
  | [] => []
  | v :: rest => v.normalize :: normalizeItems rest

def normalizeFields : Fields → Fields
  | [] => []
  | (name, v) :: rest => (name, v.normalize) :: normalizeFields rest

end

mutual

def sortFields : Value → Value
  | .list items => .list (sortItems items)
  | .object fields => .object ((sortEntries fields).mergeSort fun a b => decide (a.1 ≤ b.1))
  | v => v

def sortItems : List Value → List Value
  | [] => []
  | v :: rest => v.sortFields :: sortItems rest

def sortEntries : Fields → Fields
  | [] => []
  | (name, v) :: rest => (name, v.sortFields) :: sortEntries rest

end

def asNumber? : Value → Option Number
  | .bool b => some (.int (if b then 1 else 0))
  | .number n => some n
  | _ => none

mutual

/-- Equality of values: numbers and truth values by magnitude, objects whatever the order of their
fields. -/
def same : Value → Value → Bool
  | .null, .null => true
  | .text s, .text t => s == t
  | .list as, .list bs => sameItems as bs
  | .object as, .object bs => as.length == bs.length && sameFields as bs
  | .bool a, .bool b => a == b
  | .number a, .number b => a.eq b
  | .bool a, .number b => (Number.int (if a then 1 else 0)).eq b
  | .number a, .bool b => a.eq (.int (if b then 1 else 0))
  | _, _ => false

def sameItems : List Value → List Value → Bool
  | [], [] => true
  | a :: as, b :: bs => a.same b && sameItems as bs
  | _, _ => false

def sameFields : Fields → Fields → Bool
  | [], _ => true
  | (name, a) :: rest, bs =>
    (match Fields.get? name bs with
      | some b => a.same b
      | none => false) && sameFields rest bs

end

end Value

end Mockup
