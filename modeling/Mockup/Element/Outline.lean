import Mockup.Element

namespace Mockup.Element

def leafNote : Leaf → List Char
  | .text t =>
    "  \"".toList ++ t.text.toList.take 40 ++ ['"'] ++
      match t.pattern with
      | some p => if p.isEmpty then [] else "  (".toList ++ p.toList ++ [')']
      | none => []
  | .button b => "  <".toList ++ b.variant.toList ++ ": ".toList ++ b.label.toList ++ ['>']
  | _ => []

def branchNote (role : Branch) (count : Nat) : List Char :=
  match role with
  | .component c => "  <".toList ++ c.name.toList ++ ['>']
  | .repeater r =>
    "  <".toList ++ r.itemName.toList ++ " × ".toList ++ Number.numeral count ++ ['>']
  | _ => []

def outlineLine (level : Int) (variant : String) (i : Identity) (note : List Char) : List Char :=
  List.replicate (2 * level).toNat ' ' ++ "├─ ".toList ++ (i.name.getD "None").toList ++
    "  [".toList ++ variant.toList ++ "]  .".toList ++ i.styleRef.toList ++ note

mutual

def outlineLines (level : Int) : Element → Result (List (List Char))
  | leaf i c => .ok [outlineLine level c.variant i (leafNote c)]
  | branch i r _ es => do
    return outlineLine level r.variant i (branchNote r es.length) ::
      (← outlineLinesAll (level + 1) es)
  | foreign _ v => .error (.unknownVariant v)

def outlineLinesAll (level : Int) : List Element → Result (List (List Char))
  | [] => .ok []
  | e :: es => do
    let lines ← outlineLines level e
    return lines ++ (← outlineLinesAll level es)

end

/-- The outline of a tree, its root at the given level. Levels below zero are not indented. -/
def outline (level : Int) (e : Element) : Result String := do
  return String.ofList (['\n'].intercalate (← outlineLines level e))

end Mockup.Element
