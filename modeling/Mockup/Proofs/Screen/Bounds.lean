import Mockup.Proofs.Layer.Bounds
import Mockup.Proofs.Tree.Occurrence
import Mockup.Screen.Chrome
import Mockup.Screen.Modal
import Mockup.Screen.Variants

namespace Mockup

open Result Number

namespace Document

variable {d : Document}

theorem Bounded.item (h : d.Bounded) : d.item.Bounded :=
  h _ (Tree.item_mem_preorder d.mem_subtrees_self)

theorem Bounded.children (h : d.Bounded) : ∀ t ∈ d.children, Document.Bounded t := by
  cases d with
  | node l ts =>
      rw [Document.Bounded, Tree.preorder_node] at h
      exact fun t ht l hl =>
        (List.forall_mem_cons.mp h).2 l (List.mem_flatMap.mpr ⟨t, ht, hl⟩)

end Document

namespace SafeArea

variable {box screen : Box}

theorem closeTo_succeeds {a b : Number} {k : Nat} (ha : a.Whole k) (hb : b.Whole k) :
    Succeeds (closeTo a b) :=
  (ha.sub hb).andThen fun _ _ => succeeds_ok _

theorem isBar_succeeds (hbox : box.Bounded) (least most : Number) :
    Succeeds (isBar box least most) := by
  refine (hbox.extent .vertical).andThen fun height _ => Succeeds.unlessReturned fun _ => ?_
  exact (hbox.extent .horizontal).andThen fun _ _ => succeeds_ok _

theorem kindByPlace?_succeeds (hbox : box.Bounded) (hscreen : screen.Bounded) :
    Succeeds (kindByPlace? box screen) := by
  have hstatus : Succeeds (looksLikeStatusBar box screen) := by
    refine (hbox.start .vertical).andThen fun a ha => ?_
    refine (hscreen.start .vertical).andThen fun b hb => ?_
    refine (closeTo_succeeds ha hb).bind fun _ _ => ?_
    exact Succeeds.ite (fun _ => isBar_succeeds hbox _ _) fun _ => succeeds_ok _
  have hhome : Succeeds (looksLikeHomeIndicator box screen) := by
    refine (hbox.finish .vertical).andThen fun a ha => ?_
    refine (hscreen.finish .vertical).andThen fun b hb => ?_
    refine (closeTo_succeeds ha hb).bind fun _ _ => ?_
    exact Succeeds.ite (fun _ => isBar_succeeds hbox _ _) fun _ => succeeds_ok _
  refine hstatus.bind fun _ _ => Succeeds.unlessReturned fun _ => ?_
  exact hhome.bind fun _ _ => Succeeds.unlessReturned fun _ => succeeds_ok _

theorem chromeOf?_yields (hscreen : screen.Bounded) (direct : Bool) {layer : Layer}
    (hlayer : layer.Bounded) :
    Yields (fun found => ∀ c, found = some c → c.box.Bounded) (chromeOf? screen direct layer) := by
  rw [chromeOf?.eq_def]
  split
  · exact yields_ok (by simp)
  · next box hbox =>
      have hbox := hlayer.box box hbox
      have hmade (kind : Option ChromeKind) :
          Yields (fun found => ∀ c, found = some c → c.box.Bounded)
            (.ok (kind.map fun kind => ⟨layer.id, layer.name, kind, box⟩) :
              Number.Result (Option Chrome)) := by
        refine yields_ok fun c hc => ?_
        obtain ⟨kind, -, rfl⟩ := Option.map_eq_some_iff.mp hc
        exact hbox
      split
      · exact hmade _
      · split
        · exact (kindByPlace?_succeeds hbox hscreen).yields.bind fun kind _ => hmade kind
        · exact hmade none

theorem chromeInAll_yields {ts : List Document}
    (h : ∀ t ∈ ts, ∀ direct, Yields (fun cs => ∀ c ∈ cs, c.box.Bounded) (chromeIn screen direct t))
    (direct : Bool) :
    Yields (fun cs => ∀ c ∈ cs, c.box.Bounded) (chromeInAll screen direct ts) := by
  induction ts with
  | nil => exact yields_ok (by simp)
  | cons t ts ih =>
      obtain ⟨ht, hts⟩ := List.forall_mem_cons.mp h
      rw [chromeInAll]
      exact (ht direct).bind fun found hfound => (ih hts).bind fun more hmore =>
        yields_ok (List.forall_mem_append.mpr ⟨hfound, hmore⟩)

theorem chromeIn_yields (hscreen : screen.Bounded) {d : Document} (hd : d.Bounded)
    (direct : Bool) : Yields (fun cs => ∀ c ∈ cs, c.box.Bounded) (chromeIn screen direct d) := by
  induction d using Tree.induct generalizing direct with
  | node layer ts ih =>
      rw [chromeIn]
      refine (chromeOf?_yields hscreen direct hd.item).bind fun found hfound => ?_
      cases found with
      | some c => exact yields_ok (List.forall_mem_singleton.mpr (hfound c rfl))
      | none => exact chromeInAll_yields (fun t ht => ih t ht (hd.children t ht)) false

theorem distance_succeeds {α : Type} {x y : Number.Result Number} {k : Nat}
    (hx : Yields (Whole k) x) (hy : Yields (Whole k) y) {f : Number → Number.Result α}
    (hf : ∀ d, Succeeds (f d)) : Succeeds (do f (← (← x).sub (← y))) :=
  hx.andThen fun _ ha => hy.andThen fun _ hb => (ha.sub hb).andThen fun d _ => hf d

theorem addInsets_succeeds (hscreen : screen.Bounded) {c : Chrome} (hc : c.box.Bounded)
    (i : Insets) : Succeeds (addInsets screen i c) := by
  have hstart {b : Box} (hb : b.Bounded) (axis : Axis) :=
    (hb.start axis).mono fun _ h => h.mono (show 500 ≤ 501 by decide)
  rw [addInsets.eq_def]
  split
  · exact distance_succeeds (hc.finish .vertical) (hstart hscreen .vertical) fun _ => succeeds_ok _
  · exact distance_succeeds (hscreen.finish .vertical) (hstart hc .vertical) fun _ => succeeds_ok _
  · exact distance_succeeds (hscreen.finish .vertical) (hstart hc .vertical) fun _ => succeeds_ok _
  · refine distance_succeeds (hstart hc .vertical) (hstart hscreen .vertical) fun top => ?_
    refine distance_succeeds (hstart hc .horizontal) (hstart hscreen .horizontal) fun left => ?_
    refine distance_succeeds (hscreen.finish .horizontal) (hc.finish .horizontal) fun right => ?_
    exact distance_succeeds (hscreen.finish .vertical) (hc.finish .vertical) fun _ => succeeds_ok _

/-- The chrome on a bounded document and the insets that it leaves can be told. -/
theorem detect_succeeds {d : Document} (hd : d.Bounded) : Succeeds (detect d) := by
  have hscreen : (d.item.box.getD defaultScreen).Bounded := by
    cases hbox : d.item.box with
    | none => exact Box.bounded_of_ints (k := 10) (by decide) (by decide)
    | some box => exact hd.item.box box hbox
  refine (chromeInAll_yields (fun t ht => chromeIn_yields hscreen (hd.children t ht)) true).andThen
    fun chrome hchrome => ?_
  have hinsets : Succeeds (insetsOf (d.item.box.getD defaultScreen) chrome) :=
    succeeds_foldlM (fun i c hc => addInsets_succeeds hscreen (hchrome c hc) i) _
  exact hinsets.bind fun _ _ => succeeds_ok _

end SafeArea

namespace Modal

variable {layer parent : Layer}

theorem near_succeeds {x y : Number.Result Number} {k : Nat} (tolerance : Number)
    (hx : Yields (Whole k) x) (hy : Yields (Whole k) y) :
    Succeeds (do near tolerance (← x) (← y)) :=
  hx.andThen fun _ ha => hy.andThen fun _ hb => (ha.sub hb).andThen fun _ _ => succeeds_ok _

theorem coversParent_succeeds (hlayer : layer.Bounded) (hparent : parent.Bounded) :
    Succeeds (coversParent layer parent) := by
  rw [coversParent]
  split
  · next a b ha hb =>
      have halike (axis : Axis) : Succeeds (alike axis a b) :=
        near_succeeds _ ((hlayer.box a ha).extent axis) ((hparent.box b hb).extent axis)
      refine (halike .horizontal).bind fun _ _ => ?_
      exact Succeeds.ite (fun _ => halike .vertical) fun _ => succeeds_ok _
  · exact succeeds_ok _

theorem alignsBottom_succeeds (hlayer : layer.Bounded) (hparent : parent.Bounded) :
    Succeeds (alignsBottom layer parent) := by
  rw [alignsBottom]
  split
  · next a b ha hb =>
      exact near_succeeds _ ((hlayer.box a ha).finish .vertical)
        ((hparent.box b hb).finish .vertical)
  · exact succeeds_ok _

theorem alignsTop_succeeds (hlayer : layer.Bounded) (hparent : parent.Bounded) :
    Succeeds (alignsTop layer parent) := by
  rw [alignsTop]
  split
  · next a b ha hb =>
      exact near_succeeds _ ((hlayer.box a ha).start .vertical) ((hparent.box b hb).start .vertical)
  · exact succeeds_ok _

theorem areRound_succeeds {a b : Option Number} (ha : a ≠ none) (hb : b ≠ none) :
    Succeeds (areRound a b) := by
  obtain ⟨a, rfl⟩ := Option.ne_none_iff_exists'.mp ha
  obtain ⟨b, rfl⟩ := Option.ne_none_iff_exists'.mp hb
  exact Succeeds.ite (fun _ => succeeds_ok _) fun _ => succeeds_ok _

theorem cornersPass_succeeds {test : Corners → Number.Result Bool}
    (htest : ∀ c : Corners, (∀ r ∈ c.toList, r ≠ none) → Succeeds (test c))
    (hlayer : layer.Bounded) : Succeeds (cornersPass test layer) := by
  rw [cornersPass]
  split
  · next c hc =>
      obtain ⟨radius, hradius, hcorners⟩ := Option.bind_eq_some_iff.mp hc
      cases radius with
      | uniform n => cases hcorners
      | each corners =>
          cases hcorners
          exact htest c (hlayer.traits.corners c hradius)
  · exact succeeds_ok _

theorem hasTopCorners_succeeds {c : Corners} (hc : ∀ r ∈ c.toList, r ≠ none) :
    Succeeds (hasTopCorners c) :=
  (areRound_succeeds (hc _ (by simp [Corners.toList])) (hc _ (by simp [Corners.toList]))).bind
    fun _ _ => succeeds_ok _

theorem hasBottomCorners_succeeds {c : Corners} (hc : ∀ r ∈ c.toList, r ≠ none) :
    Succeeds (hasBottomCorners c) :=
  Succeeds.ite (fun _ => areRound_succeeds (hc _ (by simp [Corners.toList]))
    (hc _ (by simp [Corners.toList]))) fun _ => succeeds_ok _

theorem sheetKind?_succeeds (hlayer : layer.Bounded) (hparent : parent.Bounded) :
    Succeeds (sheetKind? layer parent) := by
  have hbottom := alignsBottom_succeeds hlayer hparent
  have htop := alignsTop_succeeds hlayer hparent
  have hname : Succeeds (do
      if hasSheetName layer then
        if ← alignsBottom layer parent then return some SheetKind.bottom
        if ← alignsTop layer parent then return some .top
      return none) := by
    refine Succeeds.ite (fun _ => ?_) fun _ => succeeds_ok _
    refine hbottom.bind fun _ _ => Succeeds.unlessReturned fun _ => ?_
    exact htop.bind fun _ _ => Succeeds.unlessReturned fun _ => succeeds_ok _
  have hrest : Succeeds (do
      if ← cornersPass hasBottomCorners layer then
        if ← alignsTop layer parent then return some SheetKind.top
      if hasSheetName layer then
        if ← alignsBottom layer parent then return some SheetKind.bottom
        if ← alignsTop layer parent then return some .top
      return none) := by
    refine (cornersPass_succeeds (fun _ hc => hasBottomCorners_succeeds hc) hlayer).bind
      fun _ _ => Succeeds.ite (fun _ => ?_) fun _ => hname
    exact htop.bind fun _ _ => Succeeds.unlessReturned fun _ => hname
  refine (cornersPass_succeeds (fun _ hc => hasTopCorners_succeeds hc) hlayer).bind
    fun _ _ => Succeeds.ite (fun _ => ?_) fun _ => hrest
  exact hbottom.bind fun _ _ => Succeeds.unlessReturned fun _ => hrest

theorem isTallEnough_succeeds (hlayer : layer.Bounded) : Succeeds (isTallEnough layer) := by
  rw [isTallEnough]
  split
  · next b hb => exact ((hlayer.box b hb).extent .vertical).andThen fun _ _ => succeeds_ok _
  · exact succeeds_ok _

theorem sheetInAny?_succeeds {ts : List Document} (h : ∀ t ∈ ts, Succeeds (sheetIn? parent t)) :
    Succeeds (sheetInAny? parent ts) := by
  induction ts with
  | nil => exact succeeds_ok _
  | cons t ts ih =>
      obtain ⟨ht, hts⟩ := List.forall_mem_cons.mp h
      rw [sheetInAny?]
      refine ht.bind fun found _ => ?_
      cases found with
      | some found => exact succeeds_ok _
      | none => exact ih hts

theorem sheetIn?_succeeds {d : Document} (hd : d.Bounded) (hparent : parent.Bounded) :
    Succeeds (sheetIn? parent d) := by
  induction d using Tree.induct generalizing parent with
  | node layer ts ih =>
      have hlayer : layer.Bounded := hd.item
      rw [sheetIn?]
      refine (isTallEnough_succeeds hlayer).bind fun _ _ => Succeeds.unlessReturned fun _ => ?_
      refine (sheetKind?_succeeds hlayer hparent).bind fun kind _ => ?_
      cases kind with
      | some kind => exact succeeds_ok _
      | none => exact sheetInAny?_succeeds fun t ht => ih t ht (hd.children t ht) hlayer

theorem isScrimFill_succeeds {f : Fill} (hf : f.Bounded) : Succeeds (isScrimFill f) := by
  obtain ⟨o, ho, hshare⟩ := hf.opacity
  rw [isScrimFill, ho]
  cases hc : f.solid? with
  | none => exact succeeds_ok _
  | some c =>
      exact (known_yields (hf.solid hc)).andThen fun a ha =>
        (hshare.within.mul ha.within (by decide)).andThen fun _ _ => succeeds_ok _

theorem isScrim_succeeds (hlayer : layer.Bounded) (hparent : parent.Bounded) :
    Succeeds (isScrim layer parent) := by
  refine Succeeds.unlessReturned fun _ => ?_
  refine (coversParent_succeeds hlayer hparent).bind fun _ _ => Succeeds.unlessReturned fun _ => ?_
  exact succeeds_anyM fun f hf => isScrimFill_succeeds (hlayer.traits.fills f hf)

theorem inScrim?_succeeds {d : Document} (hd : d.Bounded) (hparent : parent.Bounded) :
    Succeeds (inScrim? parent d) := by
  refine (isScrim_succeeds hd.item hparent).bind fun _ _ => ?_
  refine Succeeds.ite (fun _ => ?_) fun _ => succeeds_ok _
  exact sheetInAny?_succeeds fun t ht => sheetIn?_succeeds (hd.children t ht) hd.item

/-- Whether there is a sheet on a bounded document can be told. -/
theorem detect?_succeeds {d : Document} (hd : d.Bounded) : Succeeds (detect? d) := by
  have hamong (rest : List Document) (hrest : ∀ t ∈ rest, Document.Bounded t) :
      Succeeds (among? d.item d.children rest) := by
    induction rest with
    | nil => exact succeeds_ok _
    | cons t rest ih =>
        obtain ⟨ht, hrest⟩ := List.forall_mem_cons.mp hrest
        rw [among?]
        refine (inScrim?_succeeds ht hd.item).bind fun found _ => ?_
        cases found with
        | some found => exact succeeds_ok _
        | none => exact ih hrest
  exact hamong d.children hd.children

end Modal

namespace Variants

theorem analyze_succeeds {layer : Layer} (hlayer : layer.Bounded) (children : List Document) :
    Succeeds (analyze layer children) := by
  have hcolor (c : Color) (hc : c.Bounded) : Succeeds (rgbaText c) := by
    refine (known_yields hc).andThen fun a ha => ?_
    have halpha : Succeeds (alphaText a) :=
      (ha.within.toReal (by decide)).andThen fun _ _ => succeeds_ok _
    exact halpha.bind fun _ _ => succeeds_ok _
  refine Succeeds.bind ?_ fun _ _ => succeeds_ok _
  refine succeeds_mapM_option fun c hc => hcolor c ?_
  obtain ⟨f, hf, hsolid⟩ := Option.bind_eq_some_iff.mp hc
  exact (hlayer.traits.fills f (List.mem_of_head? hf)).solid hsolid

/-- The variants of a bounded document can be told. -/
theorem detect_succeeds {d : Document} (hd : d.Bounded) : Succeeds (detect d) := by
  cases d with
  | node layer ts =>
      have hadd (states : List StateStyle) : ∀ t ∈ ts, Succeeds (addComponent states t) := by
        intro t ht
        rw [addComponent]
        split
        · exact succeeds_ok _
        · exact (analyze_succeeds (hd.children t ht).item _).bind fun _ _ => succeeds_ok _
      have hstates (properties : List VariantProperty) : Succeeds (statesOf ts properties) :=
        succeeds_foldlM hadd _
      exact (hstates _).bind fun _ _ => succeeds_ok _

end Variants

end Mockup
