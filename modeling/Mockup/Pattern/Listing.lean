import Mockup.Element
import Mockup.Text.Scan

namespace Mockup

inductive Orientation where
  | horizontal
  | vertical
  deriving DecidableEq

def Orientation.name : Orientation → String
  | .horizontal => "horizontal"
  | .vertical => "vertical"

structure Listing where
  containerId : LayerId
  itemIds : List LayerId
  orientation : Orientation
  itemType : String

def Listing.toValue (l : Listing) : Value :=
  .record [Traits.textEntry "containerId" l.containerId,
    ("itemIds", some (.list (l.itemIds.map Value.ofText?))),
    ("orientation", some (.text l.orientation.name)), ("itemType", some (.text l.itemType))]

namespace Listing

def sizeTolerance : Number := .fraction 1 10

def leastExtent : Number := .fraction 1 100

def similarExtent (a b : Number) : Number.Result Bool := do
  let a := a.max leastExtent
  let b := b.max leastExtent
  return (← (← a.sub b).abs.div (a.max b)).le sizeTolerance

def similarSize (a b : Box) : Number.Result Bool := do
  let widths := (← a.extent .horizontal, ← b.extent .horizontal)
  let heights := (← a.extent .vertical, ← b.extent .vertical)
  if ← similarExtent widths.1 widths.2 then similarExtent heights.1 heights.2 else return false

/-- The same variant and, for containers and cards, children of the same variants in order. -/
def sameStructure (a b : Element) : Bool :=
  a.variant == b.variant &&
    match a, b with
    | .branch _ r _ as, .branch _ s _ bs =>
      !(r.isGroup && s.isGroup) || as.map Element.variant == bs.map Element.variant
    | _, _ => true

def hashStep (h : UInt32) (c : Char) : UInt32 := h * 31 + UInt32.ofNat c.toNat

def signedMagnitude (h : UInt32) : Nat :=
  if h.toNat < 0x80000000 then h.toNat else 0x100000000 - h.toNat

def base36Digit (d : Nat) : Char := "0123456789abcdefghijklmnopqrstuvwxyz".toList.getD d '0'

/-- The digits of a number to the base 36, the last one first; the fuel is at least their count. -/
def base36Reversed : Nat → Nat → List Char
  | 0, _ => []
  | fuel + 1, n =>
    base36Digit (n % 36) :: (if n / 36 = 0 then [] else base36Reversed fuel (n / 36))

def shortHash (s : String) : String :=
  let n := signedMagnitude (s.toList.foldl hashStep 0)
  String.ofList ((base36Reversed (n + 1) n).reverse.take 4)

def fallbackType (variant : String) : String :=
  (Fields.get? variant [("Card", "CardItem"), ("Container", "ListItem"),
    ("Button", "ButtonItem")]).getD "Item"

def itemTypeById (e : Element) : Result String :=
  match e.id with
  | some id => .ok (fallbackType e.variant ++ shortHash id)
  | none => .error .missingId

def itemTypeOf (e : Element) : Result String :=
  let name := Text.skip Char.isDigit (e.identity.label.toList.filter Text.isPlain)
  match name with
  | c :: rest =>
    if 3 ≤ name.length then .ok (String.ofList (c.toUpper :: rest) ++ "Item") else itemTypeById e
  | [] => itemTypeById e

def isLike (first e : Element) : Result Bool :=
  if sameStructure e first then (similarSize e.box first.box).lift else .ok false

/-- The list that a container or a card is, if its children are at least three and all alike. -/
def of? (i : Identity) (layout : Layout) (children : List Element) : Result (Option Listing) :=
  match children with
  | first :: _ :: _ :: _ => do
    if ← children.allM (isLike first) then
      return some ⟨i.id, children.map Element.id,
        if layout.flow = .row then .horizontal else .vertical, ← itemTypeOf first⟩
    else return none
  | _ => .ok none

mutual

/-- The lists in a tree, in order. Inside a list none is looked for. -/
def detect : Element → Result (List Listing)
  | .leaf .. => .ok []
  | .branch i r l es => do
    if r.isGroup then
      match ← of? i l es with
      | some found => return [found]
      | none => detectAll es
    else detectAll es
  | .foreign _ v => .error (.unknownVariant v)

def detectAll : List Element → Result (List Listing)
  | [] => .ok []
  | e :: es => do
    let found ← detect e
    return found ++ (← detectAll es)

end

end Listing

end Mockup
