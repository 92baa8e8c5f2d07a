import Mockup.Layout

namespace Mockup

abbrev Style := Fields

namespace Style

def firstVisible : List Fill → Number.Result (Option Fill)
  | [] => .ok none
  | f :: rest => do
    if Number.lt 0 (← Number.known f.opacity) then return some f
    firstVisible rest

def gradientValue (g : Gradient) (opacity : Number) : Number.Result Value := do
  let colors ← g.stops.mapM fun s => s.color.resolve opacity
  return .record [("type", some (.text g.shape.name)), ("colors", some (Value.texts colors)),
    ("positions", some (.list (g.stops.map fun s => Value.ofNumber? s.position))),
    ("angle", g.angle.map Value.number)]

def background (fills : List Fill) : Number.Result Style := do
  match ← firstVisible fills with
  | none => return []
  | some f =>
    let opacity ← Number.known f.opacity
    match f.paint with
    | .solid c => return [("backgroundColor", .text (← c.resolve opacity))]
    | .gradient g => return [("backgroundGradient", ← gradientValue g opacity)]
    | .image .. => return []

def border (strokes : List Stroke) : Number.Result Style :=
  match strokes with
  | [] => .ok []
  | s :: _ => do
    let color := ("borderColor", Value.text (← s.color.resolve (← Number.known s.opacity)))
    match s.weight with
    | some w => return if w.isZero then [color] else [color, ("borderWidth", .number w)]
    | none => return [color]

def radius (r : Option CornerRadius) : Style :=
  match r with
  | some (.each c) => [("borderRadius", c.toValue)]
  | some (.uniform n) => if n.isZero then [] else [("borderRadius", .number n)]
  | none => []

def shadowStyle (s : Shadow) : Number.Result Value := do
  return .object [("color", .text (← s.color.hex)), ("offsetX", Value.ofNumber? s.offsetX),
    ("offsetY", Value.ofNumber? s.offsetY), ("blur", Value.ofNumber? s.radius),
    ("spread", Value.ofNumber? s.spread)]

def effectName : Effect → String
  | .dropShadow _ => "shadow"
  | .innerShadow _ => "innerShadow"
  | .layerBlur _ => "blur"
  | .backgroundBlur _ => "backdropBlur"

def effectStyle : Effect → Number.Result Value
  | .dropShadow s | .innerShadow s => shadowStyle s
  | .layerBlur r | .backgroundBlur r => .ok (Value.ofNumber? r)

def effects (es : List Effect) : Number.Result Style :=
  es.foldlM (fun style e => do
    if Fields.has style (effectName e) then return style
    return style ++ [(effectName e, ← effectStyle e)]) []

/-- The colour of a text: its first solid fill, else the start of its first gradient, else black. -/
def textColor (fills : List Fill) : Number.Result String :=
  match fills.find? Fill.isSolid with
  | some ⟨.solid c, opacity⟩ => do c.resolve (← Number.known opacity)
  | _ =>
    let start (f : Fill) : Option (Color × Option Number) :=
      match f.paint with
      | .gradient g => g.stops.head?.map fun s => (s.color, f.opacity)
      | _ => none
    match fills.findSome? start with
    | some (c, opacity) => do c.resolve (← Number.known opacity)
    | none => .ok "#000000"

def typography (t : Traits) : Number.Result Style :=
  match t.typography with
  | none => .ok []
  | some ty => do
    let color ← textColor t.fills
    return [("typography", .record (ty.toFields ++ [("color", some (.text color))]))]

def isFlowing : Flow → Bool
  | .row | .column | .stack => true
  | _ => false

def justifyContent? : Alignment → Option String
  | .center => some "center"
  | .finish => some "flex-end"
  | .spaceBetween => some "space-between"
  | .spaceAround => some "space-around"
  | _ => none

def alignItems? : Alignment → Option String
  | .center => some "center"
  | .finish => some "flex-end"
  | .stretch => some "stretch"
  | .baseline => some "baseline"
  | _ => none

def ofLayout (l : Layout) : Style :=
  if isFlowing l.flow then
    let fills : Bool := match l.flow.axis? with
      | some axis => l.sizing.get axis == .fill
      | none => false
    [("flexDirection", some (.text (if l.flow = .row then "row" else "column"))),
      ("gap", (l.gap.filter fun g => !g.isZero).map Value.number),
      ("padding", if l.padding.toList.all (Option.all Number.isZero) then none
        else some l.padding.toValue),
      ("justifyContent", (justifyContent? l.mainAlign).map Value.text),
      ("alignItems", (alignItems? l.crossAlign).map Value.text),
      ("flex", if fills then some (.ofInt 1) else none)].filterMap
        fun part => part.2.map fun v => (part.1, v)
  else []

def ofRepeater (l : Layout) : Style := Value.normalizeFields (ofLayout l)

/-- Distances are rounded; percentages and words stay. -/
def positionEntry (entry : String × Value) : Number.Result (String × Value) :=
  match entry.2 with
  | .number n => do return (entry.1, .ofInt (← n.roundHalfUp))
  | _ => .ok entry

def dropHugged (l : Layout) (style : Style) : Style :=
  if isFlowing l.flow then
    let style := if l.sizing.horizontal = .hug then Fields.erase style "width" else style
    if l.sizing.vertical = .hug then Fields.erase style "height" else style
  else style

def opacity (t : Traits) : Style :=
  match t.opacity with
  | some o => if o.eq 1 then [] else [("opacity", .number o)]
  | none => []

/-- The style of a placed layer. Of two entries with one name the later one counts. -/
def of (p : Placed) : Number.Result Style := do
  let background ← background p.fills
  let border ← border p.strokes
  let effects ← effects p.effects
  let typography ← typography p.toTraits
  let width ← (← p.box.extent .horizontal).roundHalfUp
  let height ← (← p.box.extent .vertical).roundHalfUp
  let position ← (p.position.getD []).mapM positionEntry
  let style := Fields.putAll [] (background ++ border ++ radius p.cornerRadius ++ effects ++
    typography ++ [("width", .ofInt width), ("height", .ofInt height)] ++ position ++
    opacity p.toTraits ++ ofLayout p.layout)
  return Value.normalizeFields (dropHugged p.layout style)

end Style

end Mockup
