import Mockup.Proofs.Screen.Chrome
import Mockup.Proofs.Screen.Insets

namespace Mockup

open Result

namespace SafeArea

def IsNear (a b : Number.Result Number) : Prop :=
  ∃ x y d, a = .ok x ∧ b = .ok y ∧ x.sub y = .ok d ∧ d.abs.lt edgeTolerance = true

def IsAcross (least most : Number) (box : Box) : Prop :=
  ∃ height width, box.height = some height ∧ box.width = some width ∧
    least.le height = true ∧ height.le most = true ∧ fullWidth.le width = true

def IsTopBar (box screen : Box) : Prop :=
  IsNear box.top screen.top ∧ IsAcross statusBarMinimum statusBarMaximum box

def IsBottomBar (box screen : Box) : Prop :=
  IsNear box.bottom screen.bottom ∧ IsAcross homeIndicatorMinimum homeIndicatorMaximum box

inductive IsByPlace (box screen : Box) : ChromeKind → Prop
  | statusBar (h : IsTopBar box screen) : IsByPlace box screen .statusBar
  | homeIndicator (htop : ¬IsTopBar box screen) (h : IsBottomBar box screen) :
      IsByPlace box screen .homeIndicator

/-- A layer below the screen that has a box and is chrome, by its name or, if it is a child of the
screen, by its place. -/
structure IsChrome (screen : Box) (o : Occurrence Layer) (c : Chrome) : Prop where
  id : c.id = o.tree.item.id
  name : c.name = o.tree.item.name
  box : o.tree.item.box = some c.box
  below : o.around ≠ []
  kind : kindByName? o.tree.item.label = some c.kind ∨ kindByName? o.tree.item.label = none ∧
    o.around.length = 1 ∧ IsByPlace c.box screen c.kind

structure IsListed (screen : Box) (o : Occurrence Layer) (c : Chrome) : Prop where
  chrome : IsChrome screen o c
  outermost : ∀ u ∈ o.enclosing, ∀ c, ¬IsChrome screen u c

variable {screen box : Box} {direct : Bool}

section Tests

theorem closeTo_decides (a b : Number.Result Number) :
    Decides (IsNear a b) (do closeTo (← a) (← b)) :=
  Number.difference_decides (fun d => d.abs.lt edgeTolerance) a b

theorem isBar_decides (box : Box) (least most : Number) :
    Decides (IsAcross least most box) (isBar box least most) := by
  intro answer h
  obtain ⟨height, hheight, h⟩ := bind_eq_ok_iff.mp h
  rw [IsAcross, Number.known_eq_ok_iff.mp hheight]
  cases hrange : least.le height && height.le most with
  | false =>
      rw [hrange] at h
      cases h
      rw [Bool.and_eq_false_iff] at hrange
      grind
  | true =>
      rw [hrange] at h
      obtain ⟨width, hwidth, h⟩ := bind_eq_ok_iff.mp h
      cases h
      rw [Number.known_eq_ok_iff.mp hwidth]
      rw [Bool.and_eq_true] at hrange
      simp [hrange]

theorem topBar_decides (box screen : Box) :
    Decides (IsTopBar box screen) (looksLikeStatusBar box screen) := by
  have h := (closeTo_decides box.top screen.top).and
    (isBar_decides box statusBarMinimum statusBarMaximum)
  simp only [bind_assoc] at h
  exact h

theorem bottomBar_decides (box screen : Box) :
    Decides (IsBottomBar box screen) (looksLikeHomeIndicator box screen) := by
  have h := (closeTo_decides box.bottom screen.bottom).and
    (isBar_decides box homeIndicatorMinimum homeIndicatorMaximum)
  simp only [bind_assoc] at h
  exact h

theorem kindByPlace?_tells {kind : Option ChromeKind} (h : kindByPlace? box screen = .ok kind)
    (k : ChromeKind) : kind = some k ↔ IsByPlace box screen k := by
  obtain ⟨top, htop, h⟩ := bind_eq_ok_iff.mp h
  have htop := topBar_decides box screen top htop
  cases top with
  | true =>
      cases h
      constructor
      · rintro ⟨⟩
        exact .statusBar (htop.mp rfl)
      · rintro (h | ⟨hnot, -⟩)
        · rfl
        · exact (hnot (htop.mp rfl)).elim
  | false =>
      have htop : ¬IsTopBar box screen := fun h => Bool.false_ne_true (htop.mpr h)
      obtain ⟨bottom, hbottom, h⟩ := bind_eq_ok_iff.mp h
      have hbottom := bottomBar_decides box screen bottom hbottom
      cases bottom with
      | true =>
          cases h
          constructor
          · rintro ⟨⟩
            exact .homeIndicator htop (hbottom.mp rfl)
          · rintro (h | ⟨-, -⟩)
            · exact (htop h).elim
            · rfl
      | false =>
          cases h
          refine iff_of_false nofun ?_
          rintro (h | ⟨-, h⟩)
          · exact htop h
          · exact Bool.false_ne_true (hbottom.mpr h)

section Layer

variable {t : Document} {around : List Document} (haround : around ≠ [])

include haround

theorem map_eq_some_iff_isChrome {kind : Option ChromeKind} (hbox : t.item.box = some box)
    (hkind : ∀ k, kind = some k ↔ kindByName? t.item.label = some k ∨
      kindByName? t.item.label = none ∧ around.length = 1 ∧ IsByPlace box screen k) (c : Chrome) :
    kind.map (fun k => ⟨t.item.id, t.item.name, k, box⟩) = some c ↔
      IsChrome screen ⟨t, around⟩ c := by
  obtain ⟨id, name, k, b⟩ := c
  constructor
  · intro hc
    obtain ⟨k, hk, hc⟩ := Option.map_eq_some_iff.mp hc
    cases hc
    exact ⟨rfl, rfl, hbox, haround, (hkind k).mp hk⟩
  · rintro ⟨rfl, rfl, hb, -, hk⟩
    cases hbox.symm.trans hb
    rw [(hkind k).mpr hk]
    rfl

theorem chromeOf?_tells (hdirect : direct = true ↔ around.length = 1) {found : Option Chrome}
    (h : chromeOf? screen direct t.item = .ok found) (c : Chrome) :
    found = some c ↔ IsChrome screen ⟨t, around⟩ c := by
  rw [chromeOf?.eq_def] at h
  cases hbox : t.item.box with
  | none =>
      rw [hbox] at h
      cases h
      refine iff_of_false (Option.some_ne_none c).symm fun hc => ?_
      cases hbox.symm.trans hc.box
  | some box =>
      have hiff {k : Option ChromeKind} :=
        @map_eq_some_iff_isChrome screen box t around haround k hbox
      simp only [hbox] at h
      split at h
      · next name hname =>
          rw [← pure_eq_ok_iff.mp h]
          exact hiff (by simp [hname]) c
      · next hname =>
          cases direct with
          | true =>
              obtain ⟨kind, hkind, h⟩ := bind_eq_ok_iff.mp h
              rw [← pure_eq_ok_iff.mp h]
              refine hiff (fun k => ?_) c
              rw [kindByPlace?_tells hkind]
              simp [hname, hdirect.mp rfl]
          | false =>
              have hlength : around.length ≠ 1 := fun h => Bool.false_ne_true (hdirect.mpr h)
              rw [← pure_eq_ok_iff.mp h]
              exact hiff (by simp [hname, hlength]) c

end Layer

end Tests

section Walk

def IsOpen (screen : Box) (around : List Document) : Prop :=
  ∀ u ∈ Occurrence.chain around, ∀ c, ¬IsChrome screen u c

theorem walksAll_chromeInAll (screen : Box) (direct : Bool) :
    WalksAll (chromeIn screen direct) (chromeInAll screen direct) :=
  ⟨rfl, fun _ _ => rfl⟩

/-- The search finds the outermost chrome of all that lies in a tree. -/
theorem chromeIn_collects {t : Document} {around : List Document} (haround : around ≠ [])
    (hdirect : direct = true ↔ around.length = 1) (hopen : IsOpen screen around)
    {cs : List Chrome} (h : chromeIn screen direct t = .ok cs) :
    Collects (IsListed screen) (t.occurrencesIn around) cs := by
  induction t using Tree.induct generalizing direct around cs with
  | node layer ts ih =>
      rw [chromeIn] at h
      obtain ⟨found, hfound, h⟩ := bind_eq_ok_iff.mp h
      have htells := chromeOf?_tells (t := .node layer ts) haround hdirect hfound
      rw [Tree.occurrencesIn_node]
      cases found with
      | some c =>
          cases h
          have hchrome := (htells c).mp rfl
          refine .take ⟨hchrome, hopen⟩ (.of_forall fun o ho b hb => ?_)
          exact hb.outermost _ (Tree.mem_enclosing ho) c hchrome
      | none =>
          have hnone (c : Chrome) : ¬IsChrome screen ⟨.node layer ts, around⟩ c :=
            fun hc => Option.some_ne_none c ((htells c).mpr hc).symm
          have hbelow : IsOpen screen (.node layer ts :: around) :=
            List.forall_mem_cons.mpr ⟨hnone, hopen⟩
          refine .skip (fun c hc => hnone c hc.chrome)
            ((walksAll_chromeInAll screen false).selects (fun t ht cs h => ?_) h)
          refine ih t ht (List.cons_ne_nil _ _) (iff_of_false Bool.false_ne_true ?_) hbelow h
          have hlength := List.length_pos_of_ne_nil haround
          rw [List.length_cons]
          omega

def IsPlaceFault (screen : Box) (layer : Layer) (fault : NumberFault) : Prop :=
  ∃ box, layer.box = some box ∧ kindByName? layer.label = none ∧
    kindByPlace? box screen = .error fault

theorem chromeOf?_blames (layer : Layer) :
    Blames (fun fault => direct = true ∧ IsPlaceFault screen layer fault)
      (chromeOf? screen direct layer) := by
  rw [chromeOf?.eq_def]
  cases hbox : layer.box with
  | none => exact blames_ok _
  | some box =>
      simp only
      split
      · exact blames_ok _
      · next hname =>
          cases direct with
          | true => exact .bind (fun fault h => ⟨rfl, box, hbox, hname, h⟩) fun _ => blames_ok _
          | false => exact blames_ok _

/-- Only the children of the screen are tested. -/
theorem chromeIn_blames (t : Document) :
    Blames (fun fault => direct = true ∧ IsPlaceFault screen t.item fault)
      (chromeIn screen direct t) := by
  induction t using Tree.induct generalizing direct with
  | node layer ts ih =>
      rw [chromeIn]
      refine (chromeOf?_blames layer).bind fun found => ?_
      cases found with
      | some c => exact blames_ok _
      | none =>
          refine (walksAll_chromeInAll screen false).blames fun t ht => (ih t ht).mono ?_
          rintro fault ⟨⟨⟩, -⟩

end Walk

section Ids

open Modal (idsOf)

theorem idsOf_subset {t u : Document} (h : u ∈ t.subtrees) : idsOf u ⊆ idsOf t :=
  List.map_subset _ (Tree.preorder_sublist h).subset

theorem mem_idsWithin_iff {ids : List LayerId} {t : Document} {id : LayerId} :
    id ∈ idsWithin ids t ↔ ∃ u ∈ t.subtrees, u.item.id ∈ ids ∧ id ∈ idsOf u := by
  induction t using Tree.induct with
  | node layer ts ih =>
      rw [idsWithin]
      by_cases hlayer : layer.id ∈ ids
      · rw [if_pos (List.contains_iff_mem.mpr hlayer)]
        constructor
        · exact fun hid => ⟨.node layer ts, Tree.mem_subtrees_self _, hlayer, hid⟩
        · rintro ⟨u, hu, -, hid⟩
          exact idsOf_subset hu hid
      · rw [if_neg fun h => hlayer (List.contains_iff_mem.mp h), idsWithinAll_eq, List.mem_flatMap]
        constructor
        · rintro ⟨t, ht, hid⟩
          obtain ⟨u, hu, hmem⟩ := (ih t ht).mp hid
          exact ⟨u, Tree.subtrees_subset (Tree.mem_subtrees_child ht) hu, hmem⟩
        · rintro ⟨u, hu, hmem, hid⟩
          rw [Tree.subtrees_node, List.mem_cons, List.mem_flatMap] at hu
          rcases hu with rfl | ⟨t, ht, hu⟩
          · exact (hlayer hmem).elim
          · exact ⟨t, ht, (ih t ht).mpr ⟨u, hu, hmem, hid⟩⟩

variable {d : Document} {cs : List Chrome}

/-- By its id listed chrome is told from all other layers. -/
theorem mem_excluded_iff (hd : (idsOf d).Nodup)
    (hcs : Collects (IsListed screen) d.occurrences cs) (id : LayerId) :
    id ∈ idsWithinAll (cs.map fun c => c.id) d.children ↔
      ∃ o ∈ d.occurrences, (∃ c, IsListed screen o c) ∧ id ∈ idsOf o.tree := by
  have hnodup : (d.subtrees.map fun t => t.item.id).Nodup := by
    rwa [idsOf, ← Tree.map_item_subtrees, List.map_map] at hd
  rw [idsWithinAll_eq, List.mem_flatMap]
  constructor
  · rintro ⟨t, ht, hid⟩
    obtain ⟨u, hu, hmem, hid⟩ := mem_idsWithin_iff.mp hid
    obtain ⟨c, hc, heq⟩ := List.mem_map.mp hmem
    obtain ⟨o, ho, hlisted⟩ := hcs.exists_of_mem hc
    have hsame : u = o.tree :=
      List.inj_on_of_nodup_map hnodup (Tree.subtrees_subset (Tree.mem_subtrees_child ht) hu)
        (Tree.tree_mem_subtrees ho) (heq.symm.trans hlisted.chrome.id)
    exact ⟨o, ho, ⟨c, hlisted⟩, hsame ▸ hid⟩
  · rintro ⟨o, ho, ⟨c, hlisted⟩, hid⟩
    obtain ⟨b, hb, hother⟩ := hcs.exists_mem ho hlisted
    have hmem : o.tree.item.id ∈ cs.map fun c => c.id :=
      List.mem_map.mpr ⟨b, hb, hother.chrome.id⟩
    cases d with
    | node layer ts =>
        rw [Tree.occurrences, Tree.occurrencesIn_node, List.mem_cons, List.mem_flatMap] at ho
        rcases ho with rfl | ⟨t, ht, ho⟩
        · exact (hlisted.chrome.below rfl).elim
        · exact ⟨t, ht, mem_idsWithin_iff.mpr ⟨o.tree, Tree.tree_mem_subtrees ho, hmem, hid⟩⟩

theorem item_id_not_mem_excluded (hd : (idsOf d).Nodup) (ids : List LayerId) :
    d.item.id ∉ idsWithinAll ids d.children := by
  rw [Modal.idsOf_eq, List.nodup_cons] at hd
  intro h
  rw [idsWithinAll_eq, List.mem_flatMap] at h
  obtain ⟨t, ht, hid⟩ := h
  obtain ⟨u, hu, -, hid⟩ := mem_idsWithin_iff.mp hid
  exact hd.1 (List.mem_flatMap.mpr ⟨t, ht, idsOf_subset hu hid⟩)

end Ids

def screenOf (d : Document) : Box := d.item.box.getD defaultScreen

structure Tells (d : Document) (s : SafeArea) : Prop where
  chrome : Collects (IsListed (screenOf d)) d.occurrences s.chrome
  excluded : ∀ id, id ∈ s.excludedIds ↔
    ∃ o ∈ d.occurrences, (∃ c, IsListed (screenOf d) o c) ∧ id ∈ Modal.idsOf o.tree
  root : d.item.id ∉ s.excludedIds
  insets : insetsOf (screenOf d) s.chrome = .ok s.insets
  hasLayout : s.hasLayout = true ↔
    s.chrome ≠ [] ∨ Number.lt 0 s.insets.top = true ∨ Number.lt 0 s.insets.bottom = true

def IsFault (d : Document) (fault : NumberFault) : Prop :=
  (∃ t ∈ d.children, IsPlaceFault (screenOf d) t.item fault) ∨
    ∃ o ∈ d.occurrences, ∃ c, IsListed (screenOf d) o c ∧ IsReachFault (screenOf d) c fault

section Detect

variable {d : Document}

theorem chromeInAll_children {cs : List Chrome}
    (h : chromeInAll (screenOf d) true d.children = .ok cs) :
    Collects (IsListed (screenOf d)) d.occurrences cs := by
  have hroot (c : Chrome) : ¬IsChrome (screenOf d) ⟨d, []⟩ c := fun h => h.below rfl
  have hopen : IsOpen (screenOf d) [d] :=
    List.forall_mem_cons.mpr ⟨hroot, by simp [Occurrence.chain]⟩
  have hall : Collects (IsListed (screenOf d)) (d.children.flatMap (Tree.occurrencesIn [d])) cs :=
    (walksAll_chromeInAll _ true).selects (fun t _ cs h =>
      chromeIn_collects (List.cons_ne_nil _ _) (by simp) hopen h) h
  cases d with
  | node layer ts =>
      rw [Tree.occurrences, Tree.occurrencesIn_node]
      exact .skip (fun c h => hroot c h.chrome) hall

theorem detect_eq_ok {s : SafeArea} (h : detect d = .ok s) :
    chromeInAll (screenOf d) true d.children = .ok s.chrome ∧
      insetsOf (screenOf d) s.chrome = .ok s.insets ∧
      s.excludedIds = idsWithinAll (s.chrome.map fun c => c.id) d.children ∧
      s.hasLayout = (!s.chrome.isEmpty || Number.lt 0 s.insets.top ||
        Number.lt 0 s.insets.bottom) := by
  obtain ⟨chrome, hchrome, h⟩ := bind_eq_ok_iff.mp h
  obtain ⟨insets, hinsets, h⟩ := bind_eq_ok_iff.mp h
  cases h
  exact ⟨hchrome, hinsets, rfl, rfl⟩

theorem exists_detect {chrome : List Chrome} {insets : Insets}
    (hchrome : chromeInAll (screenOf d) true d.children = .ok chrome)
    (hinsets : insetsOf (screenOf d) chrome = .ok insets) :
    ∃ s, detect d = .ok s ∧ s.chrome = chrome ∧ s.insets = insets :=
  ⟨_, bind_eq_ok_iff.mpr ⟨chrome, hchrome, bind_eq_ok_iff.mpr ⟨insets, hinsets, rfl⟩⟩, rfl, rfl⟩

theorem hasLayout_iff {s : SafeArea} (h : detect d = .ok s) : s.hasLayout = true ↔
    s.chrome ≠ [] ∨ Number.lt 0 s.insets.top = true ∨ Number.lt 0 s.insets.bottom = true := by
  rw [(detect_eq_ok h).2.2.2]
  simp [or_assoc]

theorem tells_of_detect (hd : (Modal.idsOf d).Nodup) {s : SafeArea} (h : detect d = .ok s) :
    Tells d s := by
  obtain ⟨hchrome, hinsets, hexcluded, -⟩ := detect_eq_ok h
  have hlisted := chromeInAll_children hchrome
  refine ⟨hlisted, fun id => ?_, ?_, hinsets, hasLayout_iff h⟩
  · rw [hexcluded, mem_excluded_iff hd hlisted]
  · rw [hexcluded]
    exact item_id_not_mem_excluded hd _

theorem detect_blames (d : Document) : Blames (IsFault d) (detect d) := by
  intro fault h
  rcases bind_eq_error_iff.mp h with h | ⟨chrome, hchrome, h⟩
  · exact (walksAll_chromeInAll _ true).blames (fun t ht => (chromeIn_blames t).mono fun fault h =>
      .inl ⟨t, ht, h.2⟩) fault h
  · rcases bind_eq_error_iff.mp h with h | ⟨_, _, h⟩
    · obtain ⟨c, hc, hfault⟩ := insetsOf_blames fault h
      obtain ⟨o, ho, hlisted⟩ := (chromeInAll_children hchrome).exists_of_mem hc
      exact .inr ⟨o, ho, c, hlisted, hfault⟩
    · cases h

open Modal (IsNumberFault start_blames extent_blames finish_blames blames_of_tooLarge)

theorem closeTo_blames {a b : Number.Result Number} (ha : Blames IsNumberFault a)
    (hb : Blames IsNumberFault b) {α : Type} {f : Bool → Number.Result α}
    (hf : ∀ answer, Blames IsNumberFault (f answer)) :
    Blames IsNumberFault (do f (← closeTo (← a) (← b))) :=
  ha.bind fun _ => hb.bind fun _ =>
    ((blames_of_tooLarge (Number.sub_blames _ _)).bind fun _ => blames_ok _).bind hf

theorem isBar_blames (box : Box) (least most : Number) :
    Blames IsNumberFault (isBar box least most) :=
  (extent_blames box _).bind fun _ => .unlessReturned
    ((extent_blames box _).bind fun _ => blames_ok _)

theorem kindByPlace?_blames (box screen : Box) :
    Blames IsNumberFault (kindByPlace? box screen) := by
  have htop : Blames IsNumberFault (looksLikeStatusBar box screen) :=
    closeTo_blames (start_blames box _) (start_blames screen _) fun _ =>
      .ite (isBar_blames _ _ _) (blames_ok _)
  have hbottom : Blames IsNumberFault (looksLikeHomeIndicator box screen) :=
    closeTo_blames (finish_blames box _) (finish_blames screen _) fun _ =>
      .ite (isBar_blames _ _ _) (blames_ok _)
  exact htop.bind fun _ => .unlessReturned (hbottom.bind fun _ => .unlessReturned (blames_ok _))

theorem IsFault.isNumberFault {fault : NumberFault} (h : IsFault d fault) :
    IsNumberFault fault := by
  rcases h with ⟨_, _, box, _, _, hfault⟩ | ⟨_, _, c, _, side, edge, _, hfault⟩
  · exact kindByPlace?_blames box (screenOf d) fault hfault
  · exact distance_blames side edge (screenOf d) c.box fault hfault

end Detect

/-- On a document with distinct ids the search for chrome fails only over a number that is missing
or too large, in the place of a child of the screen or in a distance to which chrome reaches.
Otherwise it lists the outermost layers that are chrome and leaves out what they hold. The insets of
any chrome with integral boxes are measured by its distances. -/
theorem tells_and_measures (d : Document) (hids : (d.preorder.map fun l => l.id).Nodup) :
    (∀ fault, detect d = .error fault → Modal.IsNumberFault fault ∧ IsFault d fault) ∧
    (∀ s, detect d = .ok s → Tells d s) ∧
    ∀ screen cs, (∀ c ∈ cs, c.box.IsIntegral) → Measures screen cs := by
  refine ⟨fun fault h => ?_, fun s => tells_of_detect hids, fun screen cs => measures_of_isIntegral⟩
  have hfault := detect_blames d fault h
  exact ⟨hfault.isNumberFault, hfault⟩

def barAt (id name : String) (box : Option Box) : Layer :=
  { id := some id, name := some name, kind := some "FRAME", box := box }

/-- A status bar in a header without a box, with an indicator inside the bar, and a bar that is
known by its place. -/
def barredScreen : Document :=
  .node (barAt "1" "Home" (some ⟨some 0, some 0, some 375, some 812⟩))
    [.node (barAt "2" "Header" none)
      [.node (barAt "3" "Status Bar" (some ⟨some 0, some 0, some 375, some 44⟩))
        [.node (barAt "4" "Home Indicator" (some ⟨some 0, some 40, some 375, some 4⟩)) []]],
    .node (barAt "5" "Handle" (some ⟨some 0, some 778, some 375, some 34⟩)) []]

theorem tells_and_measures_barredScreen :
    ((barredScreen.preorder.map fun l => l.id).Nodup) ∧ ∃ s, detect barredScreen = .ok s ∧
      s.chrome.map (fun c => c.kind) = [.statusBar, .homeIndicator] ∧ Tells barredScreen s ∧
      Measures (screenOf barredScreen) s.chrome := by
  have hids : (barredScreen.preorder.map fun l => l.id).Nodup := by decide
  have hfound : (detect barredScreen).toOption.map
      (fun s => s.chrome.map fun c => (c.kind, c.box)) =
      some [(.statusBar, ⟨some 0, some 0, some 375, some 44⟩),
        (.homeIndicator, ⟨some 0, some 778, some 375, some 34⟩)] := by decide +kernel
  obtain ⟨s, hs, hchrome⟩ := Option.map_eq_some_iff.mp hfound
  have hdetect := toOption_eq_some_iff.mp hs
  obtain ⟨-, htells, hmeasures⟩ := tells_and_measures barredScreen hids
  refine ⟨hids, s, hdetect, ?_, htells s hdetect, hmeasures _ _ fun c hc => ?_⟩
  · have hkinds := congrArg (List.map Prod.fst) hchrome
    rwa [List.map_map] at hkinds
  · have hmem : (c.kind, c.box) ∈ s.chrome.map fun c => (c.kind, c.box) := List.mem_map_of_mem hc
    rw [hchrome] at hmem
    rcases List.mem_pair.mp hmem with h | h <;> rw [(Prod.mk.inj h).2] <;> exact ⟨_, _, _, _, rfl⟩

def farScreen : Document :=
  .node (barAt "1" "Home" (some ⟨some 0, some (.fraction 1 2), some 375, some 812⟩))
    [.node (barAt "2" "Card" (some ⟨some 0, some (.int (Int.pow 10 400)), some 375, some 100⟩)) []]

def flatScreen : Box :=
  ⟨some 0, some (.fraction (2 ^ 53 - 1) (2 ^ 53)), some 375, some (.fraction 1 (10 ^ 16))⟩

def flatBar : Chrome :=
  ⟨some "2", some "Status Bar", .statusBar, ⟨some 0, some 1, some 375, some 0⟩⟩

theorem liesWithin_flatBar : LiesWithin flatScreen flatBar.box := by
  have hfar : flatScreen.finish .vertical = .ok (.fraction 1 1) := by decide +kernel
  have habove : (Number.fraction (2 ^ 53 - 1) (2 ^ 53)).le 1 = true := by decide +kernel
  have hbelow : Number.le 1 (.fraction 1 1) = true := by decide +kernel
  intro side
  cases side with
  | top | bottom => exact ⟨_, _, 1, rfl, hfar, rfl, habove, hbelow⟩
  | left => exact ⟨0, 375, 0, rfl, rfl, rfl, by decide +kernel, by decide +kernel⟩
  | right => exact ⟨0, 375, 375, rfl, rfl, rfl, by decide +kernel, by decide +kernel⟩

/-- On some documents chrome is not told, and insets may be greater than a screen whose end is
rounded or that is turned over. -/
theorem not_told_farScreen :
    ((farScreen.preorder.map fun l => l.id).Nodup ∧ ∀ s, detect farScreen ≠ .ok s) ∧
    (flatBar.box.IsIntegral ∧ LiesWithin flatScreen flatBar.box ∧
      ∃ i extent, insetsOf flatScreen [flatBar] = .ok i ∧
        flatScreen.extent .vertical = .ok extent ∧ extent.lt i.top = true) ∧
    ∃ i, insetsOf { height := some (.int (-1)) } [] = .ok i ∧
      Number.lt (.int (-1)) i.top = true := by
  have hfails : (detect farScreen).toOption.isNone = true := by decide +kernel
  have hwide : ((insetsOf flatScreen [flatBar]).toOption.any fun i =>
      (Number.fraction 1 (10 ^ 16)).lt i.top) = true := by decide +kernel
  refine ⟨⟨by decide, fun s h => ?_⟩, ⟨⟨0, 1, 375, 0, rfl⟩, liesWithin_flatBar, ?_⟩, {}, rfl,
    by decide +kernel⟩
  · rw [h] at hfails
    cases hfails
  · obtain ⟨i, hi, hlt⟩ := (Option.any_eq_true _ _).mp hwide
    exact ⟨i, _, toOption_eq_some_iff.mp hi, rfl, hlt⟩

end SafeArea

end Mockup
