import Mockup.Proofs.Layout.Distances
import Mockup.Proofs.Style.Parts
import Mockup.Proofs.Value.Fields

namespace Mockup.Style

open Result Position

def int? (s : Style) (name : String) : Option Int :=
  match Fields.get? name s with
  | some (.number (.int i)) => some i
  | _ => none

/-- Where a layer starts along an axis and how long it is, as its style and the box of its parent
tell. An extent that is not given is what both edges leave. -/
def reach? (s : Style) (axis : Axis) (parent : Rect) : Option (Int × Int) :=
  let near := (s.int? (nearName axis)).map (parent.start axis + ·)
  let far := (s.int? (farName axis)).map (parent.finish axis - ·)
  match near, far, s.int? (extentName axis) with
  | some start, _, some extent => some (start, extent)
  | some start, some finish, none => some (start, finish - start)
  | none, some finish, some extent => some (finish - extent, extent)
  | _, _, _ => none

def rect? (s : Style) (parent : Rect) : Option Rect := do
  let (x, width) ← s.reach? .horizontal parent
  let (y, height) ← s.reach? .vertical parent
  return ⟨x, y, width, height⟩

/-- What the style of a layer with a constraint says along an axis. -/
def Locates (s : Style) (axis : Axis) (constraint : Option String) (box parent : Rect) : Prop :=
  if constraint = some "RIGHT" ∨ constraint = some "BOTTOM" then
    ∃ far, s.int? (farName axis) = some far ∧ box.finish axis = parent.finish axis - far ∧
      s.int? (extentName axis) = some (box.extent axis)
  else if constraint = some "LEFT_RIGHT" ∨ constraint = some "TOP_BOTTOM" then
    ∃ near far, s.int? (nearName axis) = some near ∧ box.start axis = parent.start axis + near ∧
      s.int? (farName axis) = some far ∧ box.finish axis = parent.finish axis - far ∧
      Fields.get? (extentName axis) s = some (.text "auto")
  else
    ∃ near, s.int? (nearName axis) = some near ∧ box.start axis = parent.start axis + near ∧
      s.int? (extentName axis) = some (box.extent axis)

/-- Without hugging, what is found under another name is a size or comes from the position, which
counts where it gives a size too. -/
theorem get?_of {p : Placed} {s : Style} {fields : Fields} {box : Rect} {name : String}
    (hpaint : name ∉ paintNames) (hflow : name ∉ flowNames)
    (hhug : ∀ axis, p.layout.sizing.get axis ≠ .hug) (hbox : box.IsOf p.box) (hsmall : box.IsSmall)
    (hposition : (p.position.getD []).mapM positionEntry = .ok fields) (h : Style.of p = .ok s) :
    Fields.get? name s = ((Fields.get? name fields.reverse).or (Fields.get? name
      [("height", .ofInt box.height), ("width", .ofInt box.width)])).map Value.normalize := by
  obtain ⟨back, edge, cast, type, width, height, position, hback, hedge, hcast, htype, hwidth,
    hheight, hfields, rfl⟩ := of_eq_ok h
  obtain rfl : fields = position := Except.ok.inj (hposition.symm.trans hfields)
  have hround (axis : Axis) :
      (p.box.extent axis >>= fun n => n.roundHalfUp) = .ok (box.extent axis) := by
    obtain ⟨n, hn, hinteger⟩ := (hbox axis).2
    rw [hn, ok_bind]
    exact hinteger.roundHalfUp ((hsmall axis).2.trans (by decide))
  obtain rfl : box.width = width := Except.ok.inj ((hround .horizontal).symm.trans hwidth)
  obtain rfl : box.height = height := Except.ok.inj ((hround .vertical).symm.trans hheight)
  have hdrop (style : Style) : dropHugged p.layout style = style := by
    have hwidth : p.layout.sizing.horizontal ≠ .hug := hhug .horizontal
    have hheight : p.layout.sizing.vertical ≠ .hug := hhug .vertical
    rw [dropHugged, if_neg hwidth, if_neg hheight, ite_self]
  -- from the last entry to the first, nothing but the position and the size can have the name
  have hskip {more : Style} {names : List String} (hmore : Fields.names more ⊆ names)
      (hname : name ∉ names) : Fields.get? name more.reverse = none := by
    rw [Fields.get?_eq_none_iff, Fields.names, List.map_reverse, List.mem_reverse]
    exact fun h => hname (hmore h)
  rw [hdrop, Fields.get?_normalizeFields, Fields.get?_putAll]
  simp only [List.reverse_append, Fields.get?_append, hskip (names_ofLayout _) hflow,
    hskip (names_opacity _) hflow, hskip (names_typography htype) hpaint,
    hskip (names_effects hcast) hpaint, hskip (names_radius _) hpaint,
    hskip (names_border hedge) hpaint, hskip (names_background hback) hpaint,
    Option.none_or, Option.or_none, Fields.get?]
  rfl

variable {box parent : Rect} {ties : Axis → Tie}

theorem positionEntry_ofInt (name : String) {i : Int} (hi : i.natAbs < 2 ^ 52) :
    positionEntry (name, .ofInt i) = .ok (name, .ofInt i) := by
  change ((Number.int i).roundHalfUp >>= fun j => pure (name, Value.ofInt j)) = _
  rw [Number.roundHalfUp_int hi]
  rfl

theorem positionEntry_distances (hsmall : box.IsSmall) (hparent : parent.IsSmall) (axis : Axis)
    (tie : Tie) : ∀ entry ∈ distances axis tie box parent, positionEntry entry = .ok entry := by
  have hbefore := Rect.natAbs_before_lt hsmall hparent axis
  have hafter := Rect.natAbs_after_lt hsmall hparent axis
  cases tie with
  | near => exact List.forall_mem_singleton.mpr (positionEntry_ofInt _ hbefore)
  | far => exact List.forall_mem_singleton.mpr (positionEntry_ofInt _ hafter)
  | both =>
      simp only [distances, List.forall_mem_cons]
      exact ⟨positionEntry_ofInt _ hbefore, positionEntry_ofInt _ hafter, rfl, nofun⟩
  | scale => exact nofun

theorem mapM_positionEntry_corners (hsmall : box.IsSmall) (hparent : parent.IsSmall)
    (ties : Axis → Tie) :
    (corners ties box parent).mapM positionEntry = .ok (corners ties box parent) := by
  refine mapM_eq_ok_self (List.forall_mem_cons.mpr ⟨rfl, List.forall_mem_append.mpr ⟨?_, ?_⟩⟩)
  · exact positionEntry_distances hsmall hparent .horizontal _
  · exact positionEntry_distances hsmall hparent .vertical _

def axisNames (axis : Axis) : List String := [nearName axis, farName axis, extentName axis]

theorem names_distances (axis : Axis) (tie : Tie) (box parent : Rect) :
    Fields.names (distances axis tie box parent) ⊆ axisNames axis := by
  cases tie <;> simp [distances, Fields.names, axisNames]

theorem not_mem_axisNames_other {axis : Axis} {name : String} (h : name ∈ axisNames axis) :
    name ∉ axisNames axis.other := by
  cases axis <;> revert name <;> decide

theorem get?_corners {axis : Axis} {name : String} (hname : name ∈ axisNames axis) :
    (Fields.get? name (corners ties box parent).reverse).or (Fields.get? name
      [("height", .ofInt box.height), ("width", .ofInt box.width)]) =
    (Fields.get? name (distances axis (ties axis) box parent).reverse).or
      (Fields.get? name [(extentName axis, .ofInt (box.extent axis))]) := by
  have hother (tie : Tie) :
      Fields.get? name (distances axis.other tie box parent).reverse = none := by
    rw [Fields.get?_eq_none_iff, Fields.names, List.map_reverse, List.mem_reverse]
    exact fun h => not_mem_axisNames_other hname (names_distances axis.other _ _ _ h)
  have hrest : (Fields.get? name [("position", Value.text "absolute")]).or (Fields.get? name
      [("height", .ofInt box.height), ("width", .ofInt box.width)]) =
      Fields.get? name [(extentName axis, .ofInt (box.extent axis))] := by
    simp only [axisNames, List.mem_cons, List.not_mem_nil, or_false] at hname
    cases axis <;> rcases hname with rfl | rfl | rfl <;>
      simp [Fields.get?, nearName, farName, extentName, Rect.extent]
  rw [corners, List.reverse_cons, List.reverse_append, Fields.get?_append, Fields.get?_append,
    Option.or_assoc, hrest]
  cases axis with
  | horizontal => exact congrArg (Option.or · _) ((congrArg (Option.or · _) (hother _)).trans
      Option.none_or)
  | vertical => exact congrArg (Option.or · _) ((congrArg (Option.or _) (hother _)).trans
      Option.or_none)

theorem get?_of_corners {p : Placed} {s : Style}
    (hhug : ∀ axis, p.layout.sizing.get axis ≠ .hug) (hbox : box.IsOf p.box) (hsmall : box.IsSmall)
    (hparent : parent.IsSmall) (hposition : p.position = some (corners ties box parent))
    (h : Style.of p = .ok s) (axis : Axis) (name : String) (hname : name ∈ axisNames axis) :
    Fields.get? name s = ((Fields.get? name (distances axis (ties axis) box parent).reverse).or
      (Fields.get? name [(extentName axis, .ofInt (box.extent axis))])).map Value.normalize := by
  have hown : name ∉ paintNames ∧ name ∉ flowNames := by
    clear h
    cases axis <;> revert name <;> decide
  rw [get?_of hown.1 hown.2 hhug hbox hsmall _ h, get?_corners hname]
  rw [hposition]
  exact mapM_positionEntry_corners hsmall hparent ties

def Tells (s : Style) (axis : Axis) (tie : Tie) (box parent : Rect) : Prop :=
  match tie with
  | .near => s.int? (nearName axis) = some (box.before axis parent) ∧ s.int? (farName axis) = none ∧
      s.int? (extentName axis) = some (box.extent axis)
  | .far => s.int? (nearName axis) = none ∧ s.int? (farName axis) = some (box.after axis parent) ∧
      s.int? (extentName axis) = some (box.extent axis)
  | .both => s.int? (nearName axis) = some (box.before axis parent) ∧
      s.int? (farName axis) = some (box.after axis parent) ∧
      Fields.get? (extentName axis) s = some (.text "auto")
  | .scale => True

theorem tells_of_corners {p : Placed} {s : Style}
    (hhug : ∀ axis, p.layout.sizing.get axis ≠ .hug) (hbox : box.IsOf p.box) (hsmall : box.IsSmall)
    (hparent : parent.IsSmall) (hposition : p.position = some (corners ties box parent))
    (h : Style.of p = .ok s) (axis : Axis) : Tells s axis (ties axis) box parent := by
  have hget := get?_of_corners hhug hbox hsmall hparent hposition h axis
  have hnear := hget (nearName axis) (by simp [axisNames])
  have hfar := hget (farName axis) (by simp [axisNames])
  have hextent := hget (extentName axis) (by simp [axisNames])
  have hnf : nearName axis ≠ farName axis := by cases axis <;> decide
  have hne : nearName axis ≠ extentName axis := by cases axis <;> decide
  have hfe : farName axis ≠ extentName axis := by cases axis <;> decide
  cases htie : ties axis <;> rw [htie] at hnear hfar hextent <;>
    simp [Tells, int?, hnear, hfar, hextent, distances, Fields.get?, hnf, hnf.symm, hne, hne.symm,
      hfe, hfe.symm, Value.ofInt, Value.normalize, Number.normalize]

variable {s : Style} {axis : Axis} {tie : Tie}

theorem Tells.reach?_eq (h : Tells s axis tie box parent) (htie : tie ≠ .scale) :
    s.reach? axis parent = some (box.start axis, box.extent axis) := by
  have hstart := Rect.start_eq_add_before axis box parent
  have hfinish := Rect.finish_eq_sub_after axis box parent
  have hlength : box.finish axis = box.start axis + box.extent axis := rfl
  cases tie with
  | near =>
      obtain ⟨hnear, hfar, hextent⟩ := h
      simp [reach?, hnear, hfar, hextent, ← hstart]
  | far =>
      obtain ⟨hnear, hfar, hextent⟩ := h
      simp [reach?, hnear, hfar, hextent, ← hfinish, hlength]
  | both =>
      obtain ⟨hnear, hfar, hauto⟩ := h
      have hextent : s.int? (extentName axis) = none := by rw [int?, hauto]
      simp [reach?, hnear, hfar, hextent, ← hstart, ← hfinish, hlength]
  | scale => exact absurd rfl htie

theorem Tells.locates {constraint : Option String} (hscale : constraint ≠ some "SCALE")
    (h : Tells s axis (.ofName constraint) box parent) : s.Locates axis constraint box parent := by
  have hstart := Rect.start_eq_add_before axis box parent
  have hfinish := Rect.finish_eq_sub_after axis box parent
  rw [Tie.ofName_eq hscale] at h
  rw [Locates]
  split_ifs at h ⊢
  · obtain ⟨-, hfar, hextent⟩ := h
    exact ⟨_, hfar, hfinish, hextent⟩
  · obtain ⟨hnear, hfar, hauto⟩ := h
    exact ⟨_, _, hnear, hstart, hfar, hfinish, hauto⟩
  · obtain ⟨hnear, -, hextent⟩ := h
    exact ⟨_, hnear, hstart, hextent⟩

/-- Where all coordinates of a tree are small integers, the style of every layer that is placed freely
and scales on no axis tells its distances from the edges to which it is tied, and its box follows
from these and the box of the parent. -/
theorem positions_determine_boxes {t : Tree Block} {placed u c : Tree Placed} {flow : Option Flow}
    {around : Option Box} (ht : ∀ b ∈ t.preorder, ∃ r : Rect, r.IsOf b.box ∧ r.IsSmall)
    (hplaced : Layout.place flow around t = .ok placed) (hu : u ∈ placed.subtrees)
    (hc : c ∈ u.children) (hfree : c.item.position ≠ none) {k : Constraints}
    (hk : c.item.constraints = some k) (hhorizontal : k.horizontal ≠ some "SCALE")
    (hvertical : k.vertical ≠ some "SCALE") (hhug : ∀ axis, c.item.layout.sizing.get axis ≠ .hug)
    {s : Style} (hs : Style.of c.item = .ok s) {box parent : Rect} (hbox : box.IsOf c.item.box)
    (hparent : parent.IsOf u.item.box) :
    s.Locates .horizontal k.horizontal box parent ∧ s.Locates .vertical k.vertical box parent ∧
      s.rect? parent = some box := by
  have hsmall {v : Tree Placed} (hv : v ∈ placed.subtrees) {r : Rect} (hr : r.IsOf v.item.box) :
      r.IsSmall := by
    have hblock : v.item.toBlock ∈ t.preorder := by
      rw [← Layout.map_toBlock_place hplaced]
      exact List.mem_map_of_mem (Tree.item_mem_preorder hv)
    obtain ⟨r', hr', hsmall⟩ := ht _ hblock
    rwa [hr.unique hr']
  have hboxSmall := hsmall (Tree.subtrees_subset hu (Tree.mem_subtrees_child hc)) hbox
  have hparentSmall := hsmall hu hparent
  have hties : ∀ axis, tieOf k axis ≠ .scale := by
    have hname {name : Option String} (h : name ≠ some "SCALE") : Tie.ofName name ≠ .scale := by
      rw [Tie.ofName_eq h]
      split_ifs <;> simp
    intro axis
    cases axis with
    | horizontal => exact hname hhorizontal
    | vertical => exact hname hvertical
  obtain ⟨fields, hfields⟩ := Option.ne_none_iff_exists'.mp hfree
  have hposition := Layout.position_of_place hplaced hu hc
  rw [hfields] at hposition
  rw [of_eq_corners hk hties hbox hparent hboxSmall hparentSmall hposition] at hfields
  have htells := tells_of_corners hhug hbox hboxSmall hparentSmall hfields hs
  refine ⟨(htells .horizontal).locates hhorizontal, (htells .vertical).locates hvertical, ?_⟩
  rw [rect?, (htells .horizontal).reach?_eq (hties _), (htells .vertical).reach?_eq (hties _)]
  rfl

def board : Rect := ⟨10, 20, 200, 100⟩

def note : Rect := ⟨120, 30, 80, 60⟩

def patch : Rect := ⟨110, 25, 90, 70⟩

def noteBox : Box := { note.toBox with width := some (.real (.ofInt 80)) }

def pinboard : Tree Block :=
  .node { id := some "1", name := some "Board", kind := some "FRAME", box := board.toBox }
    [.node {
        id := some "2", name := some "Note", kind := some "RECTANGLE", box := noteBox
        constraints := some ⟨some "RIGHT", some "TOP_BOTTOM"⟩ } [],
      .node {
        id := some "3", name := some "Paint", kind := some "RECTANGLE", box := patch.toBox } []]

theorem positions_determine_boxes_pinboard : ∃ placed u c s,
    Layout.place none none pinboard = .ok placed ∧ u ∈ placed.subtrees ∧ c ∈ u.children ∧
    c.item.position ≠ none ∧ Style.of c.item = .ok s ∧
    s.Locates .horizontal (some "RIGHT") note board ∧
    s.Locates .vertical (some "TOP_BOTTOM") note board ∧ s.rect? board = some note := by
  have hrun : (Layout.place none none pinboard >>= fun placed =>
      placed.children.head?.elim (.error .missing) fun c => Style.of c.item >>= fun _ =>
        .ok (placed.item.box, c.item.box, c.item.position.isSome, c.item.constraints,
          c.item.layout.sizing)) =
      .ok (board.toBox, noteBox, true, some ⟨some "RIGHT", some "TOP_BOTTOM"⟩, {}) := by
    decide +kernel
  obtain ⟨placed, hplaced, hrun⟩ := bind_eq_ok_iff.mp hrun
  obtain ⟨c, hhead⟩ : ∃ c, placed.children.head? = some c := by
    cases hhead : placed.children.head? with
    | none =>
        rw [hhead] at hrun
        cases hrun
    | some c => exact ⟨c, rfl⟩
  rw [hhead] at hrun
  obtain ⟨s, hs, hrun⟩ := bind_eq_ok_iff.mp hrun
  simp only [Except.ok.injEq, Prod.mk.injEq] at hrun
  obtain ⟨hboard, hnote, hfree, hconstraints, hsizing⟩ := hrun
  have hreal : (Number.real (.ofInt 80)).IsInteger 80 :=
    Number.isInteger_real_iff.mpr (Number.Binary64.hasUnits_ofInt (by decide))
  have hnoteOf : note.IsOf noteBox := by
    intro axis
    cases axis with
    | horizontal => exact ⟨(note.isOf_toBox .horizontal).1, yields_ok hreal⟩
    | vertical => exact note.isOf_toBox .vertical
  have hsmall : ∀ b ∈ pinboard.preorder, ∃ r : Rect, r.IsOf b.box ∧ r.IsSmall := by
    refine List.forall_mem_cons.mpr ⟨⟨board, board.isOf_toBox, ?_⟩, List.forall_mem_cons.mpr
      ⟨⟨note, hnoteOf, ?_⟩, List.forall_mem_singleton.mpr ⟨patch, patch.isOf_toBox, ?_⟩⟩⟩ <;>
      exact fun axis => by cases axis <;> decide
  have hc := List.mem_of_head? hhead
  have hfree := Option.isSome_iff_ne_none.mp hfree
  have hhug : ∀ axis, c.item.layout.sizing.get axis ≠ .hug := by
    rw [hsizing]
    exact fun axis => by cases axis <;> decide
  refine ⟨placed, placed, c, s, hplaced, placed.mem_subtrees_self, hc, hfree, hs, ?_⟩
  exact positions_determine_boxes hsmall hplaced placed.mem_subtrees_self hc hfree hconstraints
    (by decide) (by decide) hhug hs (hnote ▸ hnoteOf) (hboard ▸ board.isOf_toBox)

end Mockup.Style
