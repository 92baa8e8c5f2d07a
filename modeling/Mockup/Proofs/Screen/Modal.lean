import Mockup.Proofs.Layer.Alike
import Mockup.Screen.Modal

namespace Mockup.Modal

variable {c : Change} {a b p q : Layer}

/-- A test of two boxes that no layer without a box passes. -/
theorem onBoxes_eq {f : Box → Box → Number.Result Bool}
    (hf : ∀ {a a' b b'}, c.Moves a a' → c.Moves b b' → f a b = f a' b') (h : a.Alike c b)
    (hp : p.Alike c q) :
    (match a.box, p.box with
      | some x, some y => f x y
      | _, _ => .ok false) =
    match b.box, q.box with
      | some x, some y => f x y
      | _, _ => .ok false := by
  have hab := h.box.rel
  have hpq := hp.box.rel
  generalize a.box = x, b.box = x' at hab ⊢
  generalize p.box = y, q.box = y' at hpq ⊢
  cases hab with
  | none => rfl
  | some hx =>
      cases hpq with
      | none => rfl
      | some hy => exact hf hx hy

theorem coversParent_eq (h : a.Alike c b) (hp : p.Alike c q) :
    coversParent a p = coversParent b q :=
  onBoxes_eq (f := fun x y => do
    if ← alike .horizontal x y then alike .vertical x y else return false)
    (fun hx hy => by simp only [alike, hx.extent_eq, hy.extent_eq]) h hp

theorem alignsBottom_eq (h : a.Alike c b) (hp : p.Alike c q) :
    alignsBottom a p = alignsBottom b q := by
  refine onBoxes_eq (f := fun x y => do near edgeTolerance (← x.bottom) (← y.bottom))
    (fun hx hy => ?_) h hp
  exact Change.difference_eq (hx.finish .vertical) (hy.finish .vertical) _

theorem alignsTop_eq (h : a.Alike c b) (hp : p.Alike c q) : alignsTop a p = alignsTop b q := by
  refine onBoxes_eq (f := fun x y => do near edgeTolerance (← x.top) (← y.top))
    (fun hx hy => ?_) h hp
  exact Change.difference_eq (hx.start .vertical) (hy.start .vertical) _

theorem cornersPass_eq (test : Corners → Number.Result Bool) (h : a.Alike c b) :
    cornersPass test a = cornersPass test b :=
  h.traits.eq_of (fun t => cornersPass test { t with }) fun _ => rfl

theorem hasSheetName_eq (h : a.Alike c b) : hasSheetName a = hasSheetName b := by
  rw [hasSheetName, hasSheetName, h.label_eq]

theorem sheetKind_eq (h : a.Alike c b) (hp : p.Alike c q) : sheetKind? a p = sheetKind? b q := by
  simp only [sheetKind?, cornersPass_eq _ h, hasSheetName_eq h, alignsBottom_eq h hp,
    alignsTop_eq h hp]

theorem isTallEnough_eq (h : a.Alike c b) : isTallEnough a = isTallEnough b := by
  have hrel := h.box.rel
  rw [isTallEnough, isTallEnough]
  generalize a.box = x, b.box = x' at hrel ⊢
  cases hrel with
  | none => rfl
  | some hx => simp only [hx.extent_eq]

def AlikeSheets (c : Change) (a b : Layer × SheetKind) : Prop := a.1.Alike c b.1 ∧ a.2 = b.2

theorem sheetInAny_agree {ts ts' : List Document}
    (h : List.Forall₂ (fun t t' => Result.Agree (Option.Rel (AlikeSheets c)) (sheetIn? p t)
      (sheetIn? q t')) ts ts') :
    Result.Agree (Option.Rel (AlikeSheets c)) (sheetInAny? p ts) (sheetInAny? q ts') := by
  induction h with
  | nil => exact .ok .none
  | cons h _ ih =>
      rw [sheetInAny?, sheetInAny?]
      refine h.bind fun found found' hfound => ?_
      cases hfound with
      | some hsheet => exact .ok (.some hsheet)
      | none => exact ih

theorem sheetIn_agree (hp : p.Alike c q) {d d' : Document} (h : d.Related (Layer.Alike c) d') :
    Result.Agree (Option.Rel (AlikeSheets c)) (sheetIn? p d) (sheetIn? q d') := by
  induction d using Tree.induct generalizing d' p q with
  | node l ts ih =>
      cases h with
      | @node l l' ts ts' hl hts =>
          rw [sheetIn?, sheetIn?, isTallEnough_eq hl, sheetKind_eq hl hp]
          refine Result.agree_bind_of_eq rfl fun tall => ?_
          split
          · exact .ok .none
          · refine Result.agree_bind_of_eq rfl fun kind => ?_
            cases kind with
            | some kind => exact .ok (.some ⟨hl, rfl⟩)
            | none => exact sheetInAny_agree (Related.imp_mem hts fun t ht u h => ih t ht hl h)

theorem isScrim_eq (h : a.Alike c b) (hp : p.Alike c q) : isScrim a p = isScrim b q := by
  have hfills : a.fills = b.fills := h.traits.eq_of (fun t => t.fills) fun _ => rfl
  simp only [isScrim, h.isKind_eq, coversParent_eq h hp, hfills]

theorem idsOutside_eq {ts ts' : List Document}
    (h : List.Forall₂ (Tree.Related (Layer.Alike c)) ts ts') (id : LayerId) :
    idsOutside ts id = idsOutside ts' id := by
  rw [idsOutside, idsOutside]
  exact Related.flatMap_eq (List.rel_filter (fun t t' ht => by simp only [ht.item.id_eq]) h)
    fun t _ t' ht => Related.map_eq ht.preorder fun a b hab => hab.id_eq

theorem inScrim_agree (hp : p.Alike c q) {d d' : Document} (h : d.Related (Layer.Alike c) d') :
    Result.Agree (Option.Rel (AlikeSheets c)) (inScrim? p d) (inScrim? q d') := by
  rw [inScrim?, inScrim?, isScrim_eq h.item hp]
  refine Result.agree_bind_of_eq rfl fun scrim => ?_
  split
  · exact sheetInAny_agree (h.children.imp fun t t' ht => sheetIn_agree h.item ht)
  · exact .ok .none

theorem among_eq (hp : p.Alike c q) {all all' ts ts' : List Document}
    (hall : List.Forall₂ (Tree.Related (Layer.Alike c)) all all')
    (h : List.Forall₂ (Tree.Related (Layer.Alike c)) ts ts') :
    among? p all ts = among? q all' ts' := by
  induction h with
  | nil => rfl
  | cons ht _ ih =>
      rw [among?, among?]
      refine (inScrim_agree hp ht).bind_eq fun found found' hfound => ?_
      cases hfound with
      | none => exact ih
      | @some x y hsheet =>
          obtain ⟨content, kind⟩ := x
          obtain ⟨content', kind'⟩ := y
          obtain ⟨hcontent, hkind⟩ := hsheet
          simp only at hcontent hkind
          simp only [hkind, hcontent.id_eq, hcontent.name_eq, ht.item.id_eq, idsOutside_eq hall]

theorem detect_eq {d d' : Document} (h : d.Related (Layer.Alike c) d') :
    detect? d = detect? d' :=
  among_eq h.item h.children h.children

theorem contentWith_related {d d' : Document} (h : d.Related (Layer.Alike c) d') (id : LayerId) :
    Option.Rel (Tree.Related (Layer.Alike c)) (contentWith? d id) (contentWith? d' id) :=
  Related.find? h.subtrees fun t t' ht => by rw [ht.item.id_eq]

end Mockup.Modal
