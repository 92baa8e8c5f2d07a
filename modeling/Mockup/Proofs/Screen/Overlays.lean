import Mathlib.Data.List.Nodup
import Mockup.Proofs.Number.Faults
import Mockup.Proofs.Screen.Sheets

namespace Mockup.Modal

open Result

section Children

variable {screen : Layer} {t : Document} {ts : List Document}

def IsFoundIn (screen : Layer) (t : Document) (found : Layer × SheetKind) : Prop :=
  IsScrim t.item screen ∧ FindsFirst IsFound t.occurrences (some found)

/-- The top of an overlay is no sheet in it. -/
theorem occurrences_findsFirst {found : Option (Layer × SheetKind)}
    (h : sheetInAny? t.item t.children = .ok found) :
    FindsFirst IsFound t.occurrences found := by
  cases t with
  | node layer ts =>
      have hopen : IsOpen [.node layer ts] := by simp [IsOpen]
      rw [Tree.occurrences, Tree.occurrencesIn_node]
      refine .later ?_ (sheetInAny?_findsFirst (fun t _ _ h => sheetIn?_findsFirst hopen h) h)
      rintro found ⟨-, _, _, haround, -⟩
      cases haround

theorem finds_inScrim? (screen : Layer) (t : Document) :
    FindsAny (IsFoundIn screen t) (inScrim? screen t) := by
  intro found h
  obtain ⟨answer, hanswer, h⟩ := bind_eq_ok_iff.mp h
  have hscrim := isScrim_decides t.item screen answer hanswer
  cases answer with
  | false =>
      rw [← pure_eq_ok_iff.mp h]
      exact ⟨by simp, fun _ b hfound => Bool.false_ne_true (hscrim.mpr hfound.1)⟩
  | true =>
      have hfinds := occurrences_findsFirst h
      refine ⟨?_, ?_⟩
      · rintro b rfl
        exact ⟨hscrim.mp rfl, hfinds⟩
      · rintro rfl b ⟨-, hsome⟩
        obtain ⟨before, o, after, hsplit, -, ho⟩ := hsome.exists_split
        exact hfinds.forall_not o (by simp [hsplit]) b ho

theorem isOverlay_iff : IsOverlay screen t ↔ ∃ found, IsFoundIn screen t found := by
  constructor
  · rintro ⟨hscrim, o, ho, kind, hsheet⟩
    obtain ⟨found, hfound⟩ := FindsFirst.exists_of_mem ho (R := IsFound)
      (b := (o.tree.item, kind)) ⟨rfl, hsheet⟩
    exact ⟨found, hscrim, hfound⟩
  · rintro ⟨found, hscrim, hfound⟩
    obtain ⟨before, o, after, hsplit, -, -, hsheet⟩ := hfound.exists_split
    exact ⟨hscrim, o, by simp [hsplit], found.2, hsheet⟩

def IsTold (screen : Layer) (all : List Document) (t : Document) (m : Modal) : Prop :=
  ∃ found, IsFoundIn screen t found ∧
    m = ⟨found.2, t.item.id, found.1.id, found.1.name, idsOutside all t.item.id⟩

theorem among?_findsFirst {all : List Document} {m : Option Modal}
    (h : among? screen all ts = .ok m) : FindsFirst (IsTold screen all) ts m := by
  induction ts with
  | nil =>
      cases h
      exact .nil
  | cons t ts ih =>
      rw [among?] at h
      obtain ⟨found, hfound, h⟩ := bind_eq_ok_iff.mp h
      obtain ⟨hsome, hnone⟩ := finds_inScrim? screen t found hfound
      cases found with
      | some found =>
          cases h
          exact .here ⟨found, hsome found rfl, rfl⟩
      | none =>
          refine .later ?_ (ih h)
          rintro m ⟨found, hfound, -⟩
          exact hnone rfl found hfound

end Children

section Ids

variable {d overlay : Document}

def idsOf (t : Document) : List LayerId := t.preorder.map fun l => l.id

theorem item_id_mem_idsOf (t : Document) : t.item.id ∈ idsOf t :=
  List.mem_map_of_mem (Tree.item_mem_preorder t.mem_subtrees_self)

theorem idsOf_eq (d : Document) : idsOf d = d.item.id :: d.children.flatMap idsOf := by
  cases d with
  | node layer ts =>
      rw [idsOf, Tree.preorder_node, List.map_cons, List.map_flatMap]
      rfl

theorem contentWith?_of_mem (hd : (idsOf d).Nodup) {t : Document} (ht : t ∈ d.subtrees) :
    contentWith? d t.item.id = some t := by
  have hnodup : (d.subtrees.map fun t => t.item.id).Nodup := by
    rwa [idsOf, ← Tree.map_item_subtrees, List.map_map] at hd
  cases h : contentWith? d t.item.id with
  | none => simpa using List.find?_eq_none.mp h t ht
  | some u =>
      have hu : u.item.id = t.item.id := by simpa using List.find?_some h
      rw [List.inj_on_of_nodup_map hnodup (List.mem_of_find?_eq_some h) ht hu]

section Outside

variable {before after : List Document}

theorem disjoint_idsOf (h : ((before ++ overlay :: after).flatMap idsOf).Nodup) :
    (idsOf overlay).Disjoint ((before ++ after).flatMap idsOf) := by
  rw [List.flatMap_append, List.flatMap_cons] at h
  rw [List.flatMap_append]
  exact List.disjoint_of_nodup_append ((List.perm_append_comm_assoc _ _ _).nodup h)

/-- By its id an overlay is told from the other children of a screen. -/
theorem idsOutside_eq_flatMap (h : ((before ++ overlay :: after).flatMap idsOf).Nodup) :
    idsOutside (before ++ overlay :: after) overlay.item.id = (before ++ after).flatMap idsOf := by
  have hother (t : Document) (ht : t ∈ before ++ after) :
      (t.item.id != overlay.item.id) = true := by
    rw [bne_iff_ne]
    intro hid
    refine disjoint_idsOf h (item_id_mem_idsOf overlay) (List.mem_flatMap.mpr ⟨t, ht, ?_⟩)
    rw [← hid]
    exact item_id_mem_idsOf t
  have hrest : (before ++ overlay :: after).filter (fun t => t.item.id != overlay.item.id) =
      before ++ after := by
    rw [List.filter_append, List.filter_cons_of_neg (by simp), ← List.filter_append,
      List.filter_eq_self.mpr hother]
  rw [idsOutside, hrest]
  rfl

variable (hd : (idsOf d).Nodup) (hchildren : d.children = before ++ overlay :: after)

include hd hchildren

theorem idsOutside_eq_filter : idsOutside d.children overlay.item.id =
    (idsOf d).filter fun id => id ≠ d.item.id ∧ id ∉ idsOf overlay := by
  rw [idsOf_eq, hchildren, List.nodup_cons] at hd
  obtain ⟨hroot, hids⟩ := hd
  have hkept : ∀ id ∈ (before ++ after).flatMap idsOf, id ≠ d.item.id ∧ id ∉ idsOf overlay := by
    intro id hid
    refine ⟨?_, fun hmem => disjoint_idsOf hids hmem hid⟩
    rintro rfl
    obtain ⟨t, ht, hmem⟩ := List.mem_flatMap.mp hid
    refine hroot (List.mem_flatMap.mpr ⟨t, ?_, hmem⟩)
    rcases List.mem_append.mp ht with ht | ht
    · exact List.mem_append_left _ ht
    · exact List.mem_append_right _ (List.mem_cons_of_mem _ ht)
  have hdropped : (idsOf overlay).filter (fun id => id ≠ d.item.id ∧ id ∉ idsOf overlay) = [] :=
    List.filter_eq_nil_iff.mpr fun id hid => by simp [hid]
  rw [hchildren, idsOutside_eq_flatMap hids, idsOf_eq d, hchildren,
    List.filter_cons_of_neg (by simp), List.flatMap_append, List.flatMap_append,
    List.flatMap_cons, List.filter_append, List.filter_append, hdropped, List.nil_append,
    ← List.filter_append, ← List.flatMap_append,
    List.filter_eq_self.mpr fun id hid => decide_eq_true (hkept id hid)]

theorem perm_idsOf :
    (d.item.id :: idsOutside d.children overlay.item.id ++ idsOf overlay).Perm (idsOf d) := by
  have hids := hd
  rw [idsOf_eq, hchildren, List.nodup_cons] at hids
  rw [hchildren, idsOutside_eq_flatMap hids.2, idsOf_eq d, hchildren, List.cons_append,
    List.flatMap_append, List.flatMap_append, List.flatMap_cons, List.append_assoc]
  exact (List.perm_append_comm.append_left _).cons _

end Outside

end Ids

/-- What is told of a modal sheet on a document: its overlay is the first child that can be one, its
content the first sheet in there, and the background is everything else below the screen. -/
structure Shows (d : Document) (m : Modal) (overlay : Document) (content : Occurrence Layer) :
    Prop where
  overlay_first : ∃ before after, d.children = before ++ overlay :: after ∧
    ∀ t ∈ before, ¬IsOverlay d.item t
  scrim : IsScrim overlay.item d.item
  content_first : ∃ before after, overlay.occurrences = before ++ content :: after ∧
    ∀ o ∈ before, ∀ kind, ¬IsSheet o kind
  sheet : IsSheet content m.kind
  overlayId : m.overlayId = overlay.item.id
  contentId : m.contentId = content.tree.item.id
  contentName : m.contentName = content.tree.item.name
  extracted : contentWith? d m.contentId = some content.tree
  background : m.backgroundIds =
    (idsOf d).filter fun id => id ≠ d.item.id ∧ id ∉ idsOf overlay
  partition : (d.item.id :: m.backgroundIds ++ idsOf overlay).Perm (idsOf d)

theorem shows_of_isTold {d t : Document} {m : Modal} {before after : List Document}
    (hd : (idsOf d).Nodup) (hchildren : d.children = before ++ t :: after)
    (hbefore : ∀ u ∈ before, ∀ m, ¬IsTold d.item d.children u m)
    (h : IsTold d.item d.children t m) : ∃ content, Shows d m t content := by
  obtain ⟨⟨layer, kind⟩, ⟨hscrim, hfound⟩, rfl⟩ := h
  obtain ⟨first, content, later, hsplit, hfirst, hitem, hsheet⟩ := hfound.exists_split
  obtain rfl : content.tree.item = layer := hitem
  have hcontent : content.tree ∈ d.subtrees := by
    refine Tree.subtrees_subset (Tree.mem_subtrees_child (hchildren ▸ List.mem_append_cons_self)) ?_
    rw [← Tree.map_tree_occurrencesIn t []]
    refine List.mem_map_of_mem ?_
    change content ∈ t.occurrences
    rw [hsplit]
    exact List.mem_append_cons_self
  refine ⟨content, ⟨before, after, hchildren, fun u hu hover => ?_⟩, hscrim,
    ⟨first, later, hsplit, fun o ho kind hsheet => ?_⟩, hsheet, rfl, rfl, rfl,
    contentWith?_of_mem hd hcontent, idsOutside_eq_filter hd hchildren, perm_idsOf hd hchildren⟩
  · obtain ⟨found, hfound⟩ := isOverlay_iff.mp hover
    exact hbefore u hu _ ⟨found, hfound, rfl⟩
  · exact hfirst o ho (o.tree.item, kind) ⟨rfl, hsheet⟩

section Faults

def tests (layer parent : Layer) : List (Number.Result Bool) :=
  [isTallEnough layer, coversParent layer parent, alignsBottom layer parent,
    alignsTop layer parent, cornersPass hasTopCorners layer, cornersPass hasBottomCorners layer] ++
    layer.fills.map isScrimFill

/-- A number is missing where one is needed, or an integer is too large to meet a real. -/
def IsNumberFault (fault : NumberFault) : Prop := fault = .missing ∨ fault = .tooLarge

theorem known_blames (n : Option Number) : Blames IsNumberFault (Number.known n) := by
  cases n with
  | none =>
      rintro _ ⟨⟩
      exact .inl rfl
  | some n => exact blames_ok n

theorem blames_of_tooLarge {α : Type} {x : Number.Result α} (h : Blames (· = .tooLarge) x) :
    Blames IsNumberFault x :=
  h.mono fun _ => .inr

theorem near_blames {a b : Number.Result Number} (ha : Blames IsNumberFault a)
    (hb : Blames IsNumberFault b) (tolerance : Number) :
    Blames IsNumberFault (do near tolerance (← a) (← b)) :=
  ha.bind fun _ => hb.bind fun _ => (blames_of_tooLarge (Number.sub_blames _ _)).bind fun _ =>
    blames_ok _

theorem onBoxes_blames {test : Box → Box → Number.Result Bool}
    (htest : ∀ a b, Blames IsNumberFault (test a b)) (layer parent : Layer) :
    Blames IsNumberFault (match layer.box, parent.box with
      | some a, some b => test a b
      | _, _ => .ok false) := by
  split
  · exact htest _ _
  · exact blames_ok _

theorem start_blames (b : Box) (axis : Axis) : Blames IsNumberFault (b.start axis) := by
  cases axis <;> exact known_blames _

theorem extent_blames (b : Box) (axis : Axis) : Blames IsNumberFault (b.extent axis) := by
  cases axis <;> exact known_blames _

theorem finish_blames (b : Box) (axis : Axis) : Blames IsNumberFault (b.finish axis) :=
  (start_blames b axis).bind fun _ => (extent_blames b axis).bind fun _ =>
    blames_of_tooLarge (Number.add_blames _ _)

theorem areRound_blames (a b : Option Number) : Blames IsNumberFault (areRound a b) :=
  (known_blames a).bind fun _ =>
    .ite ((known_blames b).bind fun _ => blames_ok _) (blames_ok _)

theorem cornersPass_blames {test : Corners → Number.Result Bool}
    (htest : ∀ c, Blames IsNumberFault (test c)) (layer : Layer) :
    Blames IsNumberFault (cornersPass test layer) := by
  rw [cornersPass]
  split
  · exact htest _
  · exact blames_ok _

theorem isScrimFill_blames (f : Fill) : Blames IsNumberFault (isScrimFill f) := by
  rw [isScrimFill.eq_def]
  split
  · exact blames_ok _
  · exact fun _ h => .inl (Except.error.inj h).symm
  · exact (known_blames _).bind fun _ => (blames_of_tooLarge (Number.mul_blames _ _)).bind fun _ =>
      blames_ok _

/-- A test fails only over its numbers. -/
theorem isNumberFault_of_mem_tests {layer parent : Layer} {fault : NumberFault}
    (h : .error fault ∈ tests layer parent) : IsNumberFault fault := by
  have hall : ∀ test ∈ tests layer parent, Blames IsNumberFault test := by
    simp only [tests, List.forall_mem_append, List.forall_mem_cons, List.forall_mem_map]
    refine ⟨⟨?_, ?_, ?_, ?_, ?_, ?_, by simp⟩, fun f _ => isScrimFill_blames f⟩
    · rw [isTallEnough]
      split
      · exact (extent_blames _ _).bind fun _ => blames_ok _
      · exact blames_ok _
    · refine onBoxes_blames (fun a b => ?_) layer parent
      have halike (axis : Axis) : Blames IsNumberFault (alike axis a b) :=
        near_blames (extent_blames a axis) (extent_blames b axis) _
      exact (halike .horizontal).bind fun _ => .ite (halike .vertical) (blames_ok _)
    · exact onBoxes_blames
        (fun a b => near_blames (finish_blames a _) (finish_blames b _) _) layer parent
    · exact onBoxes_blames
        (fun a b => near_blames (start_blames a _) (start_blames b _) _) layer parent
    · exact cornersPass_blames
        (fun c => (areRound_blames _ _).bind fun _ => blames_ok _) layer
    · exact cornersPass_blames (fun c => .ite (areRound_blames _ _) (blames_ok _)) layer
  exact hall _ h fault rfl

def IsFault (d : Document) (fault : NumberFault) : Prop :=
  ∃ parent ∈ d.subtrees, ∃ t ∈ parent.children, .error fault ∈ tests t.item parent.item

section Walk

variable {d parent t : Document} (hparent : parent ∈ d.subtrees) (ht : t ∈ parent.children)

include hparent ht

theorem blames_of_mem_tests {test : Number.Result Bool} (htest : test ∈ tests t.item parent.item) :
    Blames (IsFault d) test := by
  rintro fault rfl
  exact ⟨parent, hparent, t, ht, htest⟩

theorem sheetKind?_blames : Blames (IsFault d) (sheetKind? t.item parent.item) := by
  have htest (test : Number.Result Bool) (h : test ∈ tests t.item parent.item) :=
    blames_of_mem_tests hparent ht h
  have hbottom := htest (alignsBottom t.item parent.item) (by simp [tests])
  have htop := htest (alignsTop t.item parent.item) (by simp [tests])
  have hname : Blames (IsFault d) (do
      if hasSheetName t.item then
        if ← alignsBottom t.item parent.item then return some SheetKind.bottom
        if ← alignsTop t.item parent.item then return some .top
      return none) := by
    refine .ite (hbottom.bind fun _ => .unlessReturned ?_) (blames_ok _)
    exact htop.bind fun _ => .unlessReturned (blames_ok _)
  have hrest : Blames (IsFault d) (do
      if ← cornersPass hasBottomCorners t.item then
        if ← alignsTop t.item parent.item then return some SheetKind.top
      if hasSheetName t.item then
        if ← alignsBottom t.item parent.item then return some SheetKind.bottom
        if ← alignsTop t.item parent.item then return some .top
      return none) := by
    refine (htest (cornersPass hasBottomCorners t.item) (by simp [tests])).bind fun _ => ?_
    exact .ite (htop.bind fun _ => .unlessReturned hname) hname
  refine (htest (cornersPass hasTopCorners t.item) (by simp [tests])).bind fun _ => ?_
  exact .ite (hbottom.bind fun _ => .unlessReturned hrest) hrest

theorem isScrim_blames : Blames (IsFault d) (isScrim t.item parent.item) := by
  have htest (test : Number.Result Bool) (h : test ∈ tests t.item parent.item) :=
    blames_of_mem_tests hparent ht h
  refine .unlessReturned ?_
  refine (htest (coversParent t.item parent.item) (by simp [tests])).bind fun _ => ?_
  refine .unlessReturned (.anyM fun f hf => htest (isScrimFill f) ?_)
  exact List.mem_append_right _ (List.mem_map_of_mem hf)

end Walk

theorem sheetInAny?_blames {F : NumberFault → Prop} {layer : Layer} {ts : List Document}
    (h : ∀ t ∈ ts, Blames F (sheetIn? layer t)) : Blames F (sheetInAny? layer ts) := by
  induction ts with
  | nil => exact blames_ok _
  | cons t ts ih =>
      obtain ⟨ht, hts⟩ := List.forall_mem_cons.mp h
      rw [sheetInAny?]
      refine ht.bind fun found => ?_
      cases found with
      | some found => exact blames_ok _
      | none => exact ih hts

theorem sheetIn?_blames {d parent t : Document} (hparent : parent ∈ d.subtrees)
    (ht : t ∈ parent.children) : Blames (IsFault d) (sheetIn? parent.item t) := by
  induction t using Tree.induct generalizing parent with
  | node layer ts ih =>
      have hmem : .node layer ts ∈ d.subtrees :=
        Tree.subtrees_subset hparent (Tree.mem_subtrees_child ht)
      rw [sheetIn?]
      refine (blames_of_mem_tests hparent ht (by simp [tests])).bind fun _ => .unlessReturned ?_
      refine (sheetKind?_blames hparent ht).bind fun kind => ?_
      cases kind with
      | some kind => exact blames_ok _
      | none => exact sheetInAny?_blames fun t ht => ih t ht hmem ht

theorem among?_blames {d : Document} {all ts : List Document} (hts : ∀ t ∈ ts, t ∈ d.children) :
    Blames (IsFault d) (among? d.item all ts) := by
  have hroot := d.mem_subtrees_self
  induction ts with
  | nil => exact blames_ok _
  | cons t ts ih =>
      obtain ⟨ht, hts⟩ := List.forall_mem_cons.mp hts
      have hmem := Tree.mem_subtrees_child ht
      have hin : Blames (IsFault d) (inScrim? d.item t) :=
        (isScrim_blames hroot ht).bind fun _ =>
          .ite (sheetInAny?_blames fun _ hu => sheetIn?_blames hmem hu) (blames_ok _)
      rw [among?]
      refine hin.bind fun found => ?_
      cases found with
      | some found => exact blames_ok _
      | none => exact ih hts

end Faults

/-- On a document with distinct ids the search for a modal sheet fails only where one of the tests
of some layer in its parent does, over a number that is missing or too large. Otherwise it finds
one if and only if some child of the screen is a scrim that holds a sheet, and what it tells is of
the first such scrim and of the first sheet in it. -/
theorem detects_of_distinct (d : Document) (hd : (d.preorder.map fun l => l.id).Nodup) :
    (∀ fault, detect? d = .error fault → IsNumberFault fault ∧ IsFault d fault) ∧
    ∀ found, detect? d = .ok found →
      (found.isSome ↔ ∃ t ∈ d.children, IsOverlay d.item t) ∧
      ∀ m, found = some m → ∃ overlay content, Shows d m overlay content := by
  refine ⟨fun fault h => ?_, fun found h => ⟨?_, ?_⟩⟩
  · have hfault : IsFault d fault := among?_blames (fun _ => id) fault h
    obtain ⟨_, _, _, _, htest⟩ := id hfault
    exact ⟨isNumberFault_of_mem_tests htest, hfault⟩
  · rw [(among?_findsFirst h).isSome_iff]
    refine exists_congr fun t => and_congr_right fun _ => ?_
    rw [isOverlay_iff]
    exact ⟨fun ⟨_, found, hfound, _⟩ => ⟨found, hfound⟩,
      fun ⟨found, hfound⟩ => ⟨_, found, hfound, rfl⟩⟩
  · rintro m rfl
    obtain ⟨before, overlay, after, hchildren, hbefore, htold⟩ :=
      (among?_findsFirst h).exists_split
    obtain ⟨content, hshows⟩ := shows_of_isTold hd hchildren hbefore htold
    exact ⟨overlay, content, hshows⟩

def frameOf (id name : String) (width height : Number) (fills : List Fill := []) : Layer :=
  { id := some id, name := some name, kind := some "FRAME", fills := fills,
    box := some ⟨some 0, some 0, some width, some height⟩ }

def scrimWith (height : Number) : Document :=
  .node (frameOf "3" "Scrim" 375 812 [⟨.solid {}, some (.fraction 1 2)⟩])
    [.node (frameOf "4" "Sheet" 375 height) []]

def sheetScreen (width height : Number) : Document :=
  .node (frameOf "1" "Home" (.fraction 375 1) 812)
    [.node (frameOf "2" "Strip" width 812) [], scrimWith height]

theorem detects_of_distinct_sheetScreen :
    ((sheetScreen 40 400).preorder.map fun l => l.id).Nodup ∧
      ∃ m overlay content, detect? (sheetScreen 40 400) = .ok (some m) ∧
        Shows (sheetScreen 40 400) m overlay content := by
  have hids : ((sheetScreen 40 400).preorder.map fun l => l.id).Nodup := by decide
  have hsome : (detect? (sheetScreen 40 400)).toOption.join.isSome = true := by decide +kernel
  obtain ⟨m, hm⟩ := Option.isSome_iff_exists.mp hsome
  have hdetect := toOption_eq_some_iff.mp (Option.join_eq_some_iff.mp hm)
  obtain ⟨overlay, content, hshows⟩ :=
    ((detects_of_distinct (sheetScreen 40 400) hids).2 (some m) hdetect).2 m rfl
  exact ⟨hids, m, overlay, content, hdetect, hshows⟩

def wideScreen : Document := sheetScreen (.int (Int.pow 10 400)) 400

/-- A strip that is too wide to be compared keeps a sheet behind it from being found, and a sheet
of undefined height is found, though it is not at least as high as a sheet has to be. -/
theorem not_detected_wideScreen :
    ((wideScreen.preorder.map fun l => l.id).Nodup ∧
      (∃ t ∈ wideScreen.children, IsOverlay wideScreen.item t) ∧
      ¬∃ m, detect? wideScreen = .ok (some m)) ∧
    (((sheetScreen 40 (.real .nan)).preorder.map fun l => l.id).Nodup ∧
      (∀ t ∈ (sheetScreen 40 (.real .nan)).children, ∀ u ∈ t.children, ∀ l ∈ u.preorder,
        ∀ b h, l.box = some b → b.height = some h → minimumHeight.le h = false) ∧
      ∃ m, detect? (sheetScreen 40 (.real .nan)) = .ok (some m)) := by
  have hscrim : (inScrim? wideScreen.item (scrimWith 400)).toOption.join.isSome = true := by
    decide +kernel
  have hfails : (detect? wideScreen).toOption.isNone = true := by decide +kernel
  have hfinds : (detect? (sheetScreen 40 (.real .nan))).toOption.join.isSome = true := by
    decide +kernel
  refine ⟨⟨by decide, ⟨scrimWith 400, List.mem_cons_of_mem _ (List.mem_singleton_self _), ?_⟩, ?_⟩,
    by decide, ?_, ?_⟩
  · obtain ⟨found, hfound⟩ := Option.isSome_iff_exists.mp hscrim
    have hin := toOption_eq_some_iff.mp (Option.join_eq_some_iff.mp hfound)
    exact isOverlay_iff.mpr ⟨found, (finds_inScrim? _ _ _ hin).1 found rfl⟩
  · rintro ⟨m, hm⟩
    rw [hm] at hfails
    cases hfails
  · simp only [sheetScreen, scrimWith, frameOf, Tree.preorder_node, Tree.children_node,
      List.forall_mem_cons, List.flatMap_nil, List.not_mem_nil, false_imp_iff, implies_true,
      and_true, true_and]
    rintro b h ⟨⟩ ⟨⟩
    rfl
  · obtain ⟨m, hm⟩ := Option.isSome_iff_exists.mp hfinds
    exact ⟨m, toOption_eq_some_iff.mp (Option.join_eq_some_iff.mp hm)⟩

end Mockup.Modal
