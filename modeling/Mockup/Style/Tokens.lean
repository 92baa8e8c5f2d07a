import Mockup.Style

namespace Mockup

structure Tokens where
  colors : Fields := []
  spacing : Fields := []
  radii : Fields := []
  typography : Fields := []
  shadows : Fields := []

namespace Tokens

def toValue (t : Tokens) : Value :=
  .object [("colors", .object t.colors), ("spacing", .object t.spacing),
    ("radii", .object t.radii), ("typography", .object t.typography),
    ("shadows", .object t.shadows)]

def distinctBy {α : Type} (same : α → α → Bool) (items : List α) : List α :=
  items.foldl (fun seen a => if seen.any (fun b => same b a) then seen else seen ++ [a]) []

def enumerate (name : String) (values : List Value) : Fields :=
  values.zipIdx.map fun entry => (name ++ "_" ++ String.ofList (Number.numeral entry.2), entry.1)

def present (values : List (Option Value)) : List Value :=
  (values.filterMap fun v => v).filter fun v => !v.isVacant

def styleColors (style : Style) : List Value :=
  present [Fields.get? "backgroundColor" style, Fields.get? "borderColor" style,
    Fields.get? "color" (style.nested "shadow"), Fields.get? "color" (style.nested "typography")]

def colorsOf (styles : List Style) : Fields :=
  enumerate "color" (distinctBy Value.same (styles.flatMap styleColors))

def layoutSpacing (l : Layout) : Number.Result (List Number) := do
  return (← (l.gap :: l.padding.toList).mapM Number.known).filter (Number.lt 0)

def spacingOf (t : Option (Tree Placed)) : Number.Result Fields := do
  let all ← ((t.map Tree.preorder).getD []).mapM fun p => layoutSpacing p.layout
  let sorted := (distinctBy Number.eq all.flatten).mergeSort fun a b => !b.lt a
  return enumerate "spacing" (sorted.map fun n => .number n.normalize)

/-- The radii of a style. Those of single corners have to be numbers, and any other radius that is
none does not count. -/
def styleRadii (style : Style) : Number.Result (List Value) :=
  match Fields.get? "borderRadius" style with
  | some (.object corners) =>
    if corners.all fun c => c.2.asNumber?.isSome then .ok (corners.map (·.2)) else .error .missing
  | some v => .ok (if v.asNumber?.isSome then [v] else [])
  | none => .ok []

def magnitude (v : Value) : Number := v.asNumber?.getD 0

def radiiOf (styles : List Style) : Number.Result Fields := do
  let all := (← styles.mapM styleRadii).flatten
  let positive := (distinctBy Value.same all).filter fun v => Number.lt 0 (magnitude v)
  return enumerate "radius" (positive.mergeSort fun a b => !(magnitude b).lt (magnitude a))

def face (typography : Fields) : List (String × Value) :=
  ["fontFamily", "fontSize", "fontWeight"].map fun name =>
    (name, (Fields.get? name typography).getD .null)

def faceEntry (typography : Fields) : Value :=
  match Fields.get? "lineHeight" typography with
  | none | some .null => .object (face typography)
  | some h => .object (face typography ++ [("lineHeight", h)])

def typographyOf (styles : List Style) : Fields :=
  let all := (styles.map fun style => style.nested "typography").filter fun t => !t.isEmpty
  let same (a b : Fields) : Bool := (Value.object (face a)).same (.object (face b))
  enumerate "text" ((distinctBy same all).map faceEntry)

def shadowsOf (styles : List Style) : Fields :=
  let all := present (styles.map fun style => Fields.get? "shadow" style)
  enumerate "shadow" (distinctBy Value.same all)

def of (styles : List (String × Style)) (t : Option (Tree Placed)) : Number.Result Tokens := do
  let styles := styles.map (·.2)
  return ⟨colorsOf styles, ← spacingOf t, ← radiiOf styles, typographyOf styles, shadowsOf styles⟩

end Tokens

end Mockup
