import Mockup.Proofs.Element.Recognition
import Mockup.Proofs.Layout.Blocks
import Mockup.Proofs.Style.Totality
import Mockup.Proofs.Value.Sameness

namespace Mockup

open Result

def CornerRadius.radii : CornerRadius → List (Option Number)
  | .uniform r => [some r]
  | .each c => c.toList

structure Placed.IsDefined (p : Placed) : Prop where
  shadow : ∀ s, .dropShadow s ∈ p.effects →
    ∀ n ∈ [s.offsetX, s.offsetY, s.radius, s.spread], n ≠ some (.real .nan)
  radius : ∀ r, p.cornerRadius = some r → ∀ n ∈ r.radii, n ≠ some (.real .nan)
  typography : ∀ ty, p.typography = some ty →
    ty.fontSize ≠ .real .nan ∧ ty.fontWeight ≠ .real .nan

def Layout.Spaces (l : Layout) (n : Number) : Prop := l.gap = some n ∨ some n ∈ l.padding.toList

theorem Color.resolve_ne_empty {c : Color} {opacity : Number} {s : String}
    (h : c.resolve opacity = .ok s) : s ≠ "" := by
  have hne (cs : List Char) : String.ofList (c.hexChannels ++ cs) ≠ "" := by
    simp [hexChannels]
  obtain ⟨a, -, h⟩ := bind_eq_ok_iff.mp h
  obtain ⟨alpha, -, h⟩ := bind_eq_ok_iff.mp h
  split at h
  · cases h
    simpa using hne []
  · obtain ⟨scaled, -, h⟩ := bind_eq_ok_iff.mp h
    obtain ⟨sum, -, h⟩ := bind_eq_ok_iff.mp h
    obtain ⟨i, -, h⟩ := bind_eq_ok_iff.mp h
    cases h
    exact hne _

namespace Style

def tokenNames : List String :=
  ["backgroundColor", "borderColor", "borderRadius", "shadow", "typography", "gap", "padding"]

/-- What the style of a layer may say under these names, before it is normalized. -/
inductive Entry (p : Placed) : String → Value → Prop
  | background {s : String} (hs : s ≠ "") : Entry p "backgroundColor" (.text s)
  | border {s : String} (hs : s ≠ "") : Entry p "borderColor" (.text s)
  | radius {r : CornerRadius} (hr : p.cornerRadius = some r) : Entry p "borderRadius" r.toValue
  | shadow {s : Shadow} {v : Value} (hs : .dropShadow s ∈ p.effects)
      (hv : shadowStyle s = .ok v) : Entry p "shadow" v
  | typography {ty : Typography} {s : String} (hty : p.typography = some ty) (hs : s ≠ "") :
      Entry p "typography" (.record (ty.toFields ++ [("color", some (.text s))]))
  | gap {n : Number} (hn : p.layout.gap = some n) : Entry p "gap" (.number n)
  | padding : Entry p "padding" p.layout.padding.toValue
  | other {name : String} {v : Value} (hname : name ∉ tokenNames) : Entry p name v

variable {p : Placed} {s : Style}

theorem entry_background (h : background p.fills = .ok s) : ∀ e ∈ s, Entry p e.1 e.2 := by
  obtain ⟨fill, -, h⟩ := bind_eq_ok_iff.mp h
  cases fill with
  | none =>
      cases h
      simp
  | some f =>
      obtain ⟨opacity, -, h⟩ := bind_eq_ok_iff.mp h
      split at h
      · obtain ⟨color, hcolor, h⟩ := bind_eq_ok_iff.mp h
        cases h
        exact List.forall_mem_singleton.mpr (.background (Color.resolve_ne_empty hcolor))
      · obtain ⟨gradient, -, h⟩ := bind_eq_ok_iff.mp h
        cases h
        exact List.forall_mem_singleton.mpr (.other (by simp [tokenNames]))
      · cases h
        simp

theorem entry_border (h : border p.strokes = .ok s) : ∀ e ∈ s, Entry p e.1 e.2 := by
  cases hstrokes : p.strokes with
  | nil =>
      rw [hstrokes] at h
      cases h
      simp
  | cons stroke strokes =>
      rw [hstrokes] at h
      obtain ⟨opacity, -, h⟩ := bind_eq_ok_iff.mp h
      obtain ⟨color, hcolor, h⟩ := bind_eq_ok_iff.mp h
      have hborder : Entry p "borderColor" (.text color) :=
        .border (Color.resolve_ne_empty hcolor)
      split at h
      · split at h
        · cases h
          exact List.forall_mem_singleton.mpr hborder
        · cases h
          exact List.forall_mem_cons.mpr
            ⟨hborder, List.forall_mem_singleton.mpr (.other (by simp [tokenNames]))⟩
      · cases h
        exact List.forall_mem_singleton.mpr hborder

theorem entry_radius : ∀ e ∈ radius p.cornerRadius, Entry p e.1 e.2 := by
  cases hradius : p.cornerRadius with
  | none => simp [radius]
  | some r =>
      have hentry : Entry p "borderRadius" r.toValue := .radius hradius
      cases r with
      | each c => exact List.forall_mem_singleton.mpr hentry
      | uniform n =>
          rw [radius]
          split
          · simp
          · exact List.forall_mem_singleton.mpr hentry

theorem entry_effects (h : effects p.effects = .ok s) : ∀ e ∈ s, Entry p e.1 e.2 := by
  refine foldlM_preserves (P := fun s => ∀ e ∈ s, Entry p e.1 e.2)
    (fun style hstyle effect heffect next hnext => ?_) (by simp) h
  split at hnext
  · cases hnext
    exact hstyle
  · obtain ⟨v, hv, hnext⟩ := bind_eq_ok_iff.mp hnext
    cases hnext
    refine List.forall_mem_append.mpr ⟨hstyle, List.forall_mem_singleton.mpr ?_⟩
    cases effect with
    | dropShadow shadow => exact .shadow heffect hv
    | innerShadow shadow => exact .other (by simp [effectName, tokenNames])
    | layerBlur r => exact .other (by simp [effectName, tokenNames])
    | backgroundBlur r => exact .other (by simp [effectName, tokenNames])

theorem textColor_ne_empty {fills : List Fill} {color : String}
    (h : textColor fills = .ok color) : color ≠ "" := by
  rw [textColor] at h
  split at h
  · obtain ⟨opacity, -, h⟩ := bind_eq_ok_iff.mp h
    exact Color.resolve_ne_empty h
  · dsimp only at h
    split at h
    · obtain ⟨opacity, -, h⟩ := bind_eq_ok_iff.mp h
      exact Color.resolve_ne_empty h
    · cases h
      decide

theorem entry_typography (h : typography p.toTraits = .ok s) : ∀ e ∈ s, Entry p e.1 e.2 := by
  rw [typography] at h
  split at h
  · cases h
    simp
  · next ty hty =>
      obtain ⟨color, hcolor, h⟩ := bind_eq_ok_iff.mp h
      cases h
      exact List.forall_mem_singleton.mpr (.typography hty (textColor_ne_empty hcolor))

theorem entry_opacity : ∀ e ∈ opacity p.toTraits, Entry p e.1 e.2 := by
  rw [opacity]
  split
  · split
    · simp
    · exact List.forall_mem_singleton.mpr (.other (by simp [tokenNames]))
  · simp

theorem entry_ofLayout : ∀ e ∈ ofLayout p.layout, Entry p e.1 e.2 := by
  rw [ofLayout]
  split
  · intro e he
    obtain ⟨part, hpart, hsome⟩ := List.mem_filterMap.mp he
    obtain ⟨v, hv, rfl⟩ := Option.map_eq_some_iff.mp hsome
    simp only [List.mem_cons, List.not_mem_nil, or_false] at hpart
    rcases hpart with rfl | rfl | rfl | rfl | rfl | rfl
    · exact .other (by simp [tokenNames])
    · obtain ⟨n, hn, rfl⟩ := Option.map_eq_some_iff.mp hv
      exact .gap (Option.filter_eq_some_iff.mp hn).1
    · cases (Option.ite_none_left_eq_some.mp hv).2
      exact .padding
    · exact .other (by simp [tokenNames])
    · exact .other (by simp [tokenNames])
    · exact .other (by simp [tokenNames])
  · simp

theorem name_positionEntry {entry entry' : String × Value} (h : positionEntry entry = .ok entry') :
    entry'.1 = entry.1 := by
  rw [positionEntry] at h
  split at h
  · obtain ⟨i, -, h⟩ := bind_eq_ok_iff.mp h
    cases h
    rfl
  · cases h
    rfl

end Style

/-- The position of a layer says nothing that tokens are taken from. -/
def Placed.HasPlainPosition (p : Placed) : Prop :=
  ∀ name ∈ Fields.names (p.position.getD []), name ∉ Style.tokenNames

namespace Position

variable {axis : Axis} {tie : Tie} {box parent : Box} {fields : Fields}

theorem names_along (h : along axis tie box parent = .ok fields) :
    Fields.names fields ⊆ [nearName axis, farName axis, extentName axis] := by
  obtain ⟨start, -, h⟩ := bind_eq_ok_iff.mp h
  obtain ⟨start', -, h⟩ := bind_eq_ok_iff.mp h
  obtain ⟨offset, -, h⟩ := bind_eq_ok_iff.mp h
  obtain ⟨size, -, h⟩ := bind_eq_ok_iff.mp h
  obtain ⟨whole, -, h⟩ := bind_eq_ok_iff.mp h
  obtain ⟨last, -, h⟩ := bind_eq_ok_iff.mp h
  obtain ⟨trailing, -, h⟩ := bind_eq_ok_iff.mp h
  cases tie with
  | near | far | both =>
      cases h
      simp [Fields.names]
  | scale =>
      obtain ⟨near, -, h⟩ := bind_eq_ok_iff.mp h
      obtain ⟨extent, -, h⟩ := bind_eq_ok_iff.mp h
      cases h
      simp [Fields.names]

theorem not_mem_tokenNames_along (h : along axis tie box parent = .ok fields) :
    ∀ name ∈ Fields.names fields, name ∉ Style.tokenNames := by
  have hnames : ∀ name ∈ [nearName axis, farName axis, extentName axis],
      name ∉ Style.tokenNames := by
    cases axis <;> decide
  exact fun name hname => hnames name (names_along h hname)

end Position

/-- The positions of a tree that was laid out are plain. -/
theorem Layout.hasPlainPosition_of_place {flow : Option Flow} {box : Option Box} {t : Tree Block}
    {placed : Tree Placed} (h : place flow box t = .ok placed) :
    ∀ p ∈ placed.preorder, p.HasPlainPosition := by
  refine forall_preorder_place (fun b ts flow box p hp => ?_) h
  have hposition := position_of_placeBlock hp
  rw [Placed.HasPlainPosition]
  generalize p.position = position at hposition ⊢
  rw [Position.of.eq_def] at hposition
  split at hposition
  · split at hposition
    · obtain ⟨fields, hfields, hposition⟩ := bind_eq_ok_iff.mp hposition
      cases hposition
      obtain ⟨across, hacross, hfields⟩ := bind_eq_ok_iff.mp hfields
      obtain ⟨down, hdown, hfields⟩ := bind_eq_ok_iff.mp hfields
      cases hfields
      rw [Option.getD_some, Fields.names, List.cons_append, List.map_cons, List.map_append]
      exact List.forall_mem_cons.mpr ⟨by simp [Style.tokenNames], List.forall_mem_append.mpr
        ⟨Position.not_mem_tokenNames_along hacross, Position.not_mem_tokenNames_along hdown⟩⟩
    · cases hposition
      simp [Fields.names]
  · cases hposition
    simp [Fields.names]

namespace Style

variable {p : Placed} {s : Style}

/-- A style that says nothing under these names but what the style of the layer may say. -/
def SaysOf (p : Placed) (s : Style) : Prop :=
  ∀ e ∈ s, ∃ v, Entry p e.1 v ∧ e.2 = v.normalize

theorem saysOf_normalizeFields (h : ∀ e ∈ s, Entry p e.1 e.2) :
    SaysOf p (Value.normalizeFields s) := by
  rw [Value.normalizeFields_eq]
  exact List.forall_mem_map.mpr fun e he => ⟨e.2, h e he, rfl⟩

theorem saysOf_of (hposition : p.HasPlainPosition) (h : Style.of p = .ok s) : SaysOf p s := by
  obtain ⟨back, edge, cast, type, width, height, position, hback, hedge, hcast, htype, -, -,
    hentries, rfl⟩ := of_eq_ok h
  refine saysOf_normalizeFields fun e he => ?_
  have hmem := (Fields.mem_putAll (dropHugged_subset _ _ he)).resolve_left List.not_mem_nil
  simp only [List.mem_append] at hmem
  rcases hmem with (((((((h | h) | h) | h) | h) | h) | h) | h) | h
  · exact entry_background hback e h
  · exact entry_border hedge e h
  · exact entry_radius e h
  · exact entry_effects hcast e h
  · exact entry_typography htype e h
  · simp only [List.mem_cons, List.not_mem_nil, or_false] at h
    rcases h with rfl | rfl <;> exact .other (by simp [tokenNames])
  · obtain ⟨entry, hentry, heq⟩ := exists_of_mapM_eq_ok hentries h
    rw [name_positionEntry heq]
    exact .other (hposition _ (List.mem_map_of_mem hentry))
  · exact entry_opacity e h
  · exact entry_ofLayout e h

theorem SaysOf.get? (h : SaysOf p s) {name : String} {v : Value}
    (hv : Fields.get? name s = some v) : ∃ w, Entry p name w ∧ v = w.normalize :=
  h _ (Fields.mem_of_get? hv)

def IsColor (v : Value) : Prop := ∃ c, c ≠ "" ∧ v = .text c

def IsRadius (v : Value) : Prop := ∃ n, v = .number n ∧ n.IsNormal ∧ n ≠ .real .nan

def IsShadow (v : Value) : Prop :=
  ∃ fields, v = .object fields ∧
    Fields.names fields = ["color", "offsetX", "offsetY", "blur", "spread"] ∧
    (∀ f ∈ fields, f.2.IsAtom) ∧ ∃ c, Fields.get? "color" fields = some c ∧ IsColor c

def IsTypography (v : Value) : Prop :=
  ∃ fields, v = .object fields ∧
    (∀ name ∈ ["fontFamily", "fontSize", "fontWeight"], ∃ a, Fields.get? name fields = some a ∧
      a.IsAtom) ∧ ∃ c, Fields.get? "color" fields = some c ∧ IsColor c

/-- A style whose colours, radii, shadow and type face are what they should be. -/
structure IsTokenable (s : Style) : Prop where
  background : ∀ v, Fields.get? "backgroundColor" s = some v → IsColor v
  border : ∀ v, Fields.get? "borderColor" s = some v → IsColor v
  radius : ∀ v, Fields.get? "borderRadius" s = some v →
    IsRadius v ∨ ∃ corners, v = .object corners ∧ ∀ c ∈ corners, IsRadius c.2
  shadow : ∀ v, Fields.get? "shadow" s = some v → IsShadow v
  typography : ∀ v, Fields.get? "typography" s = some v → IsTypography v

def Spaces (s : Style) (n : Number) : Prop :=
  Fields.get? "gap" s = some (.number n) ∨
    ∃ padding, Fields.get? "padding" s = some (.object padding) ∧
      .number n ∈ padding.map Prod.snd

theorem mem_numbers {parts : List (String × Option Number)} {v : Value}
    (hv : v ∈ ((Value.record (parts.map fun part =>
      (part.1, part.2.map Value.number))).normalize.fields).map Prod.snd) :
    ∃ n, some n ∈ parts.map Prod.snd ∧ v = .number n.normalize := by
  rw [Value.record, Value.normalize, Value.fields, Value.normalizeFields_eq, List.map_map] at hv
  obtain ⟨field, hfield, rfl⟩ := List.mem_map.mp hv
  obtain ⟨part, hpart, hsome⟩ := List.mem_filterMap.mp hfield
  obtain ⟨⟨name, n⟩, hn, rfl⟩ := List.mem_map.mp hpart
  obtain ⟨w, hw, rfl⟩ := Option.map_eq_some_iff.mp hsome
  obtain ⟨m, rfl, rfl⟩ := Option.map_eq_some_iff.mp hw
  exact ⟨m, List.mem_map_of_mem hn, rfl⟩

theorem mem_corners {c : Corners} {v : Value}
    (hv : v ∈ (c.toValue.normalize.fields).map Prod.snd) :
    ∃ n, some n ∈ c.toList ∧ v = .number n.normalize :=
  @mem_numbers [("topLeft", c.topLeft), ("topRight", c.topRight), ("bottomRight", c.bottomRight),
    ("bottomLeft", c.bottomLeft)] v hv

theorem mem_padding {padding : Padding} {v : Value}
    (hv : v ∈ (padding.toValue.normalize.fields).map Prod.snd) :
    ∃ n, some n ∈ padding.toList ∧ v = .number n.normalize :=
  @mem_numbers [("top", padding.top), ("right", padding.right), ("bottom", padding.bottom),
    ("left", padding.left)] v hv

namespace SaysOf

variable {v : Value}

theorem color (h : SaysOf p s) {name : String}
    (hname : name = "backgroundColor" ∨ name = "borderColor") (hv : Fields.get? name s = some v) :
    IsColor v := by
  obtain ⟨w, hentry, rfl⟩ := h.get? hv
  cases hentry with
  | @background c hc | @border c hc => exact ⟨c, hc, rfl⟩
  | radius | shadow | typography | gap | padding => simp at hname
  | other hother => rcases hname with rfl | rfl <;> simp [tokenNames] at hother

theorem radius (h : SaysOf p s) (hp : p.IsDefined)
    (hv : Fields.get? "borderRadius" s = some v) :
    IsRadius v ∨ ∃ corners, v = .object corners ∧ ∀ c ∈ corners, IsRadius c.2 := by
  obtain ⟨w, hentry, rfl⟩ := h.get? hv
  generalize hname : "borderRadius" = name at hentry
  cases hentry with
  | background | border | shadow | typography | gap | padding => simp at hname
  | other hother => simp [← hname, tokenNames] at hother
  | @radius r hr =>
      have hradius {n : Number} (hn : some n ∈ r.radii) : IsRadius (.number n.normalize) :=
        ⟨n.normalize, rfl, n.isNormal_normalize,
          Number.normalize_ne_nan fun h => hp.radius r hr _ hn (congrArg some h)⟩
      cases r with
      | uniform n => exact .inl (hradius (List.mem_singleton_self _))
      | each c =>
          refine .inr ⟨_, rfl, fun corner hcorner => ?_⟩
          obtain ⟨n, hn, hv⟩ := mem_corners (List.mem_map_of_mem hcorner)
          rw [hv]
          exact hradius hn

theorem shadow (h : SaysOf p s) (hp : p.IsDefined) (hv : Fields.get? "shadow" s = some v) :
    IsShadow v := by
  obtain ⟨w, hentry, rfl⟩ := h.get? hv
  generalize hname : "shadow" = name at hentry
  cases hentry with
  | background | border | radius | typography | gap | padding => simp at hname
  | other hother => simp [← hname, tokenNames] at hother
  | @shadow shadow _ hs hw =>
      obtain ⟨color, hcolor, hw⟩ := bind_eq_ok_iff.mp hw
      cases hw
      have hatom {n : Option Number}
          (hn : n ∈ [shadow.offsetX, shadow.offsetY, shadow.radius, shadow.spread]) :
          (Value.ofNumber? n).normalize.IsAtom :=
        Value.isAtom_normalize_ofNumber? (hp.shadow shadow hs n hn)
      refine ⟨_, rfl, rfl, ?_, .text color, rfl, color, Color.resolve_ne_empty hcolor, rfl⟩
      simp only [Value.normalizeFields, List.forall_mem_cons]
      exact ⟨.text color, hatom (by simp), hatom (by simp), hatom (by simp), hatom (by simp),
        List.forall_mem_nil _⟩

theorem typography (h : SaysOf p s) (hp : p.IsDefined)
    (hv : Fields.get? "typography" s = some v) : IsTypography v := by
  obtain ⟨w, hentry, rfl⟩ := h.get? hv
  generalize hname : "typography" = name at hentry
  cases hentry with
  | background | border | radius | shadow | gap | padding => simp at hname
  | other hother => simp [← hname, tokenNames] at hother
  | @typography ty color hty hcolor =>
      obtain ⟨hsize, hweight⟩ := hp.typography ty hty
      have hget (name : String) (x : Option Value)
          (hx : (name, x) ∈ ty.toFields ++ [("color", some (.text color))]) :
          Fields.get? name (Value.record (ty.toFields ++
            [("color", some (.text color))])).normalize.fields = x.map Value.normalize := by
        refine (Fields.get?_normalizeFields _ _).trans (congrArg _ (Fields.get?_parts ?_ hx))
        simp [Typography.toFields]
      have hfamily := hget "fontFamily" (some (.text ty.fontFamily.shown))
        (by simp [Typography.toFields])
      have hfontSize := hget "fontSize" (some (.number ty.fontSize)) (by simp [Typography.toFields])
      have hfontWeight := hget "fontWeight" (some (.number ty.fontWeight))
        (by simp [Typography.toFields])
      refine ⟨_, rfl, ?_, .text color, hget "color" (some (.text color)) (by simp), color, hcolor,
        rfl⟩
      simp only [List.forall_mem_cons]
      exact ⟨⟨_, hfamily, .text _⟩, ⟨_, hfontSize, Value.isAtom_normalize_number hsize⟩,
        ⟨_, hfontWeight, Value.isAtom_normalize_number hweight⟩, List.forall_mem_nil _⟩

theorem spaces (h : SaysOf p s) {n : Number} (hn : s.Spaces n) :
    ∃ m, p.layout.Spaces m ∧ m.normalize = n := by
  rcases hn with hn | ⟨padding, hpadding, hn⟩
  · obtain ⟨w, hentry, hw⟩ := h.get? hn
    generalize hname : "gap" = name at hentry
    cases hentry with
    | background | border | radius | shadow | typography | padding => simp at hname
    | other hother => simp [← hname, tokenNames] at hother
    | @gap m hm => exact ⟨m, .inl hm, (Value.number.inj hw).symm⟩
  · obtain ⟨w, hentry, hw⟩ := h.get? hpadding
    generalize hname : "padding" = name at hentry
    cases hentry with
    | background | border | radius | shadow | typography | gap => simp at hname
    | other hother => simp [← hname, tokenNames] at hother
    | padding =>
        obtain ⟨m, hm, heq⟩ := mem_padding (v := .number n) (by rw [← hw]; exact hn)
        exact ⟨m, .inr hm, (Value.number.inj heq).symm⟩

theorem isTokenable (h : SaysOf p s) (hp : p.IsDefined) : IsTokenable s where
  background := fun _ => h.color (.inl rfl)
  border := fun _ => h.color (.inr rfl)
  radius := fun _ => h.radius hp
  shadow := fun _ => h.shadow hp
  typography := fun _ => h.typography hp

end SaysOf

section Registered

variable {P : Style → Prop} {t : Tree Placed} {r r' : Registry} {e e' : Element}

theorem forall_styles_assignPart (hlayer : ∀ id s, ofId t id = .ok s → P s)
    (hr : ∀ entry ∈ r.styles, P entry.2) {ref ref' : Option String} {id : LayerId}
    (h : assignPart t r ref id = .ok (ref', r')) : ∀ entry ∈ r'.styles, P entry.2 := by
  rw [assignPart.eq_def] at h
  split at h
  · split at h
    · cases h
      exact hr
    · obtain ⟨s, hs, h⟩ := bind_eq_ok_iff.mp h
      cases h
      exact forall_styles_register hr _ (hlayer _ s hs)
  · cases h
    exact hr

theorem forall_styles_assignLeaf (hlayer : ∀ id s, ofId t id = .ok s → P s)
    (hr : ∀ entry ∈ r.styles, P entry.2) {styleRef : String} {c c' : Leaf}
    (h : assignLeaf t r styleRef c = .ok (c', r')) : ∀ entry ∈ r'.styles, P entry.2 := by
  cases c with
  | text c | image c | icon c =>
      cases h
      exact hr
  | button b =>
      obtain ⟨⟨b', r₁⟩, hb, h⟩ := bind_eq_ok_iff.mp h
      cases h
      obtain ⟨⟨textRef, r₂⟩, htext, hb⟩ := bind_eq_ok_iff.mp hb
      obtain ⟨⟨iconRef, r₃⟩, hicon, hb⟩ := bind_eq_ok_iff.mp hb
      cases hb
      exact forall_styles_assignPart hlayer (forall_styles_assignPart hlayer hr htext) hicon

theorem forall_styles_assignAll {es es' : List Element}
    (ih : ∀ e ∈ es, ∀ {r r' e'}, (∀ entry ∈ r.styles, P entry.2) → assign t r e = .ok (e', r') →
      ∀ entry ∈ r'.styles, P entry.2)
    (hr : ∀ entry ∈ r.styles, P entry.2) (h : assignAll t r es = .ok (es', r')) :
    ∀ entry ∈ r'.styles, P entry.2 := by
  induction es generalizing r es' with
  | nil =>
      cases h
      exact hr
  | cons e es ihl =>
      obtain ⟨e', es'', r₁, he, hes, rfl⟩ := assignAll_cons_eq_ok h
      exact ihl (fun e he => ih e (List.mem_cons_of_mem _ he)) (ih e List.mem_cons_self hr he) hes

/-- What holds of the styles of all layers, and of those of the repeaters in a tree, holds of all
styles that are registered for the tree. -/
theorem forall_styles_of_assign (hlayer : ∀ id s, ofId t id = .ok s → P s)
    (hlayout : ∀ x ∈ e.nodes, P (ofRepeater (Recognition.layoutOr x)))
    (hr : ∀ entry ∈ r.styles, P entry.2) (h : assign t r e = .ok (e', r')) :
    ∀ entry ∈ r'.styles, P entry.2 := by
  induction e generalizing r r' e' with
  | leaf i c =>
      obtain ⟨s, c', hs, hc, -⟩ := assign_leaf_eq_ok h
      exact forall_styles_assignLeaf hlayer (forall_styles_register hr _ (hlayer _ s hs)) hc
  | foreign i v =>
      rw [assign] at h
      cases h
  | branch i b l es ih =>
      obtain ⟨s, es', hs, hes, -⟩ := assign_branch_eq_ok h
      have hstyle : P s := by
        cases b with
        | repeater b =>
            cases hs
            exact hlayout _ (Element.mem_nodes_self _)
        | container | card | component b => exact hlayer _ s hs
      refine forall_styles_assignAll (fun e he _ _ _ hr h => ?_)
        (forall_styles_register hr _ hstyle) hes
      exact ih e he (fun x hx => hlayout x (Element.nodes_subset_of_child he hx)) hr h

end Registered

end Style

namespace Recognition

variable {n : Naming} {t : Tree Placed} {e : Element}

def IsLayoutIn (t : Tree Placed) (l : Layout) : Prop :=
  l = { flow := .column } ∨ ∃ p ∈ t.preorder, p.layout = l

theorem IsLayoutIn.mono {u : Tree Placed} {l : Layout} (hu : u ∈ t.subtrees)
    (h : IsLayoutIn u l) : IsLayoutIn t l :=
  h.imp_right fun ⟨p, hp, hl⟩ => ⟨p, (Tree.preorder_sublist hu).subset hp, hl⟩

theorem layoutOr_unlinked (x : Element) : layoutOr x.unlinked = layoutOr x := by
  cases x with
  | leaf i c => rfl
  | foreign i v => rfl
  | branch i r l es =>
      rw [Element.unlinked, Element.relabel_branch]
      rfl

theorem layoutOr_of_unlinked_eq {x x' : Element} (h : x'.unlinked = x.unlinked) :
    layoutOr x' = layoutOr x := by
  rw [← layoutOr_unlinked, h, layoutOr_unlinked]

/-- Every element of a recognized tree is laid out like a layer, repeaters too. -/
theorem isLayoutIn_of_recognize (h : recognize n t = .ok e) :
    ∀ x ∈ e.nodes, IsLayoutIn t (layoutOr x) := by
  refine forall_nodes_of_recognize (P := fun t x => IsLayoutIn t (layoutOr x))
    ?_ ?_ ?_ ?_ ?_ ?_ h
  · exact fun p ts role i c _ _ _ => .inl rfl
  · exact fun p ts i c es _ _ => .inr ⟨p, List.mem_cons_self, rfl⟩
  · exact fun p ts role r i es _ _ _ _ => .inr ⟨p, List.mem_cons_self, rfl⟩
  · -- a repeater is laid out like its first element
    exact fun t p item items _ _ h => h
  · exact fun t u x hmem h => h.mono hmem
  · intro t x x' hxx h
    rwa [layoutOr_of_unlinked_eq hxx]

end Recognition

namespace Style

/-- Every style in the bundle of a recognized tree says what the style of some layer may say. -/
theorem saysOf_of_assign {n : Naming} {t : Tree Placed} {e e' : Element} {r : Registry}
    (hposition : ∀ p ∈ t.preorder, p.HasPlainPosition) (he : Recognition.recognize n t = .ok e)
    (ha : assign t {} e = .ok (e', r)) :
    ∀ entry ∈ r.styles, ∃ p ∈ t.preorder, SaysOf p entry.2 := by
  have hroot : t.item ∈ t.preorder := Tree.item_mem_preorder t.mem_subtrees_self
  refine forall_styles_of_assign (P := fun s => ∃ p ∈ t.preorder, SaysOf p s) (fun id s hs => ?_)
    (fun x hx => ?_) (by simp) ha
  · rw [ofId] at hs
    split at hs
    · next p hp =>
        have hmem := t.postorder_perm_preorder.mem_iff.mp (List.mem_of_find?_eq_some hp)
        exact ⟨p, hmem, saysOf_of (hposition p hmem) (registrable_eq_ok_iff.mp hs).1⟩
    · cases hs
      exact ⟨t.item, hroot, by simp [SaysOf]⟩
  · rcases Recognition.isLayoutIn_of_recognize he x hx with hl | ⟨p, hp, hl⟩
    · rw [hl]
      refine ⟨t.item, hroot, List.forall_mem_singleton.mpr ⟨.text "column", ?_, rfl⟩⟩
      exact .other (by simp [tokenNames])
    · rw [← hl]
      exact ⟨p, hp, saysOf_normalizeFields entry_ofLayout⟩

end Style

end Mockup
