import Mockup.Text.Pattern.Reading
import Mockup.Value

namespace Mockup

inductive Fault where
  | number (fault : NumberFault)
  /-- something else stands where an object belongs -/
  | notAnObject
  /-- a name is to be made of a null id -/
  | missingId
  /-- a null id has no place in the order of others -/
  | unorderedIds
  /-- something else stands where a text belongs -/
  | notText
  /-- a list or an object stands where one of neither belongs -/
  | notAtom
  /-- something else stands where a list belongs -/
  | notAList
  /-- an element outside the closed set of variants was asked for its children -/
  | unknownVariant (name : String)
  /-- half a surrogate pair stands in a text that needs a UTF-8 form -/
  | halfPair
  /-- the digit prefix is no regular expression -/
  | invalidPattern (flaw : Text.Pattern.Flaw) (text : String)
  deriving DecidableEq, Repr

def Fault.message : Fault → String
  | .unknownVariant name => "Unknown IR variant: " ++ name ++ "IR"
  | .invalidPattern .malformed text => "not a regular expression: " ++ text
  | .invalidPattern .tooLarge _ => "a number is too large"
  | .notAnObject => "not an object"
  | .missingId => "the id is missing"
  | .unorderedIds => "a null id cannot be ordered"
  | .notText => "not a text"
  | .notAtom => "a list or an object"
  | .notAList => "not a list"
  | .halfPair => "surrogates not allowed"
  | .number .tooLarge => "int too large to convert to float"
  | .number .infinite => "cannot convert float infinity to integer"
  | .number .undefined => "cannot convert float NaN to integer"
  | .number .divisionByZero => "division by zero"
  | .number .missing => "the number is missing"

abbrev Result (α : Type) := Except Fault α

def Number.Result.lift {α : Type} (r : Number.Result α) : Mockup.Result α := r.mapError .number

def Value.objectFields : Value → Result Fields
  | .object fields => .ok fields
  | _ => .error .notAnObject

end Mockup
