import Mockup.Proofs.Layer.Alike
import Mockup.Screen.Chrome

namespace Mockup

structure Chrome.Alike (c : Change) (a b : Chrome) : Prop where
  id : a.id = b.id
  name : a.name = b.name
  kind : a.kind = b.kind
  box : c.Moves a.box b.box

structure SafeArea.Alike (c : Change) (a b : SafeArea) : Prop where
  insets : a.insets = b.insets
  chrome : List.Forall₂ (Chrome.Alike c) a.chrome b.chrome
  excludedIds : a.excludedIds = b.excludedIds
  hasLayout : a.hasLayout = b.hasLayout

namespace SafeArea

variable {c : Change} {screen screen' : Box}

theorem isBar_eq {a b : Box} (h : c.Moves a b) (least most : Number) :
    isBar a least most = isBar b least most := by
  simp only [isBar, h.extent_eq]

theorem looksLikeStatusBar_eq {a b : Box} (hs : c.Moves screen screen') (h : c.Moves a b) :
    looksLikeStatusBar a screen = looksLikeStatusBar b screen' := by
  rw [looksLikeStatusBar, looksLikeStatusBar]
  refine (h.start .vertical).bind_eq fun s s' hs' => (hs.start .vertical).bind_eq fun t t' ht => ?_
  rw [closeTo, closeTo, hs'.sub_eq ht, isBar_eq h]

theorem looksLikeHomeIndicator_eq {a b : Box} (hs : c.Moves screen screen') (h : c.Moves a b) :
    looksLikeHomeIndicator a screen = looksLikeHomeIndicator b screen' := by
  rw [looksLikeHomeIndicator, looksLikeHomeIndicator]
  refine (h.finish .vertical).bind_eq fun s s' hs' =>
    (hs.finish .vertical).bind_eq fun t t' ht => ?_
  rw [closeTo, closeTo, hs'.sub_eq ht, isBar_eq h]

theorem kindByPlace_eq {a b : Box} (hs : c.Moves screen screen') (h : c.Moves a b) :
    kindByPlace? a screen = kindByPlace? b screen' := by
  rw [kindByPlace?, kindByPlace?, looksLikeStatusBar_eq hs h, looksLikeHomeIndicator_eq hs h]

theorem chromeOf_agree (hs : c.Moves screen screen') (direct : Bool) {a b : Layer}
    (h : a.Alike c b) :
    Result.Agree (Option.Rel (Chrome.Alike c)) (chromeOf? screen direct a)
      (chromeOf? screen' direct b) := by
  have hrel := h.box.rel
  rw [chromeOf?.eq_def, chromeOf?.eq_def, h.label_eq, h.id_eq, h.name_eq]
  generalize a.box = box, b.box = box' at hrel
  cases hrel with
  | none => exact .ok .none
  | @some box box' hbox =>
      have hmade (kind : Option ChromeKind) : Option.Rel (Chrome.Alike c)
          (kind.map fun kind => ⟨b.id, b.name, kind, box⟩)
          (kind.map fun kind => ⟨b.id, b.name, kind, box'⟩) := by
        cases kind with
        | none => exact .none
        | some kind => exact .some ⟨rfl, rfl, rfl, hbox⟩
      simp only [kindByPlace_eq hs hbox]
      split
      · exact .ok (hmade _)
      · split
        · exact Result.agree_bind_of_eq rfl fun kind => .ok (hmade kind)
        · exact .ok .none

theorem chromeInAll_agree {ts ts' : List Document}
    (h : List.Forall₂ (fun t t' => ∀ direct, Result.Agree (List.Forall₂ (Chrome.Alike c))
      (chromeIn screen direct t) (chromeIn screen' direct t')) ts ts') (direct : Bool) :
    Result.Agree (List.Forall₂ (Chrome.Alike c)) (chromeInAll screen direct ts)
      (chromeInAll screen' direct ts') := by
  induction h with
  | nil => exact .ok .nil
  | cons h _ ih =>
      rw [chromeInAll, chromeInAll]
      exact (h direct).bind fun as bs hab => ih.bind fun as' bs' hab' =>
        .ok (List.rel_append hab hab')

theorem chromeIn_agree (hs : c.Moves screen screen') {d d' : Document}
    (h : d.Related (Layer.Alike c) d') :
    ∀ direct, Result.Agree (List.Forall₂ (Chrome.Alike c)) (chromeIn screen direct d)
      (chromeIn screen' direct d') := by
  induction d using Tree.induct generalizing d' with
  | node l ts ih =>
      intro direct
      cases h with
      | node hl hts =>
          rw [chromeIn, chromeIn]
          refine (chromeOf_agree hs direct hl).bind fun found found' hfound => ?_
          cases hfound with
          | some hc => exact .ok (.cons hc .nil)
          | none => exact chromeInAll_agree (Related.imp_mem hts ih) false

theorem addInsets_eq (hs : c.Moves screen screen') (i : Insets) {a b : Chrome} (h : a.Alike c b) :
    addInsets screen i a = addInsets screen' i b := by
  rw [addInsets, addInsets, h.kind]
  cases b.kind with
  | statusBar => exact Change.difference_eq (h.box.finish .vertical) (hs.start .vertical) _
  | homeIndicator | navigationBar =>
      exact Change.difference_eq (hs.finish .vertical) (h.box.start .vertical) _
  | safeArea =>
      have htop (f : Number → Number.Result Insets) :=
        Change.difference_eq (h.box.start .vertical) (hs.start .vertical) f
      have hleft (f : Number → Number.Result Insets) :=
        Change.difference_eq (h.box.start .horizontal) (hs.start .horizontal) f
      have hright (f : Number → Number.Result Insets) :=
        Change.difference_eq (hs.finish .horizontal) (h.box.finish .horizontal) f
      have hbottom (f : Number → Number.Result Insets) :=
        Change.difference_eq (hs.finish .vertical) (h.box.finish .vertical) f
      simp only [Box.top, Box.left, Box.right, Box.bottom, htop, hleft, hright, hbottom]

theorem insetsOf_eq (hs : c.Moves screen screen') {as bs : List Chrome}
    (h : List.Forall₂ (Chrome.Alike c) as bs) : insetsOf screen as = insetsOf screen' bs := by
  refine Result.agree_eq_iff.mp (Result.agree_foldlM h rfl ?_)
  rintro i _ a b rfl hab
  exact Result.agree_eq_iff.mpr (addInsets_eq hs i hab)

theorem idsWithinAll_eq (ids : List LayerId) (ts : List Document) :
    idsWithinAll ids ts = ts.flatMap (idsWithin ids) := by
  induction ts with
  | nil => rfl
  | cons t ts ih => rw [idsWithinAll, ih, List.flatMap_cons]

theorem idsWithin_eq (ids : List LayerId) {d d' : Document} (h : d.Related (Layer.Alike c) d') :
    idsWithin ids d = idsWithin ids d' := by
  induction d using Tree.induct generalizing d' with
  | node l ts ih =>
      have hbelow := Related.map_eq (f := fun l => l.id) (g := fun l => l.id) h.preorder
        fun a b hab => hab.id_eq
      cases h with
      | node hl hts =>
          rw [Tree.preorder, Tree.preorder, List.map_cons, List.map_cons] at hbelow
          rw [idsWithin, idsWithin, hl.id_eq, (List.cons.inj hbelow).2, idsWithinAll_eq,
            idsWithinAll_eq, Related.flatMap_eq hts ih]

theorem detect_agree {d d' : Document} (h : d.Related (Layer.Alike c) d') :
    Result.Agree (SafeArea.Alike c) (detect d) (detect d') := by
  have hscreen := h.item.box.getD defaultScreen
  rw [detect, detect]
  have hall := h.children.imp fun t t' ht => chromeIn_agree hscreen ht
  refine (chromeInAll_agree hall true).bind fun chrome chrome' hchrome => ?_
  rw [insetsOf_eq hscreen hchrome]
  refine Result.agree_bind_of_eq rfl fun insets => .ok ⟨rfl, hchrome, ?_, ?_⟩
  · rw [Related.map_eq hchrome fun a b hab => hab.id, idsWithinAll_eq, idsWithinAll_eq,
      Related.flatMap_eq h.children fun t _ t' ht => idsWithin_eq _ ht]
  · rw [Related.isEmpty_eq hchrome]

end SafeArea

end Mockup
