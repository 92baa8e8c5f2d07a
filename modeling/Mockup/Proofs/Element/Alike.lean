import Mockup.Element.Recognition
import Mockup.Proofs.Element.Role
import Mockup.Proofs.Element.Tree

namespace Mockup

def Leaf.textless : Leaf → Leaf
  | .text _ => .text {}
  | .image i => .image { i with propName := none }
  | .icon i => .icon i
  | .button b => .button { b with label := "" }

def Branch.textless : Branch → Branch
  | .component c => .component { c with properties := [] }
  | r => r

structure Identity.Alike (c : Change) (i j : Identity) : Prop where
  id : i.id = j.id
  name : i.name = j.name
  styleRef : i.styleRef = j.styleRef
  box : c.Moves i.box j.box

structure Leaf.Alike (c : Change) (l m : Leaf) : Prop where
  textless : l.textless = m.textless
  same : c ≠ .texts → l = m

structure Branch.Alike (c : Change) (r s : Branch) : Prop where
  textless : r.textless = s.textless
  same : c ≠ .texts → r = s

inductive Element.Alike (c : Change) : Element → Element → Prop
  | leaf {i j : Identity} {l m : Leaf} (hi : i.Alike c j) (hl : l.Alike c m) :
      Alike c (leaf i l) (leaf j m)
  | branch {i j : Identity} {r s : Branch} {layout : Layout} {es fs : List Element}
      (hi : i.Alike c j) (hr : r.Alike c s) (hes : List.Forall₂ (Alike c) es fs) :
      Alike c (branch i r layout es) (branch j s layout fs)

variable {c : Change}

theorem Leaf.Alike.refl (l : Leaf) : l.Alike c l := ⟨rfl, fun _ => rfl⟩

theorem Branch.Alike.refl (r : Branch) : r.Alike c r := ⟨rfl, fun _ => rfl⟩

theorem Leaf.Alike.cases {l m : Leaf} (h : l.Alike c m) :
    (∃ a b, l = .text a ∧ m = .text b) ∨ (∃ a b, l = .image a ∧ m = .image b) ∨
    (∃ a, l = .icon a ∧ m = .icon a) ∨ ∃ a b, l = .button a ∧ m = .button b := by
  have htextless := h.textless
  cases l with
  | text a =>
      cases m with
      | text b => exact .inl ⟨a, b, rfl, rfl⟩
      | image b | icon b | button b => cases htextless
  | image a =>
      cases m with
      | image b => exact .inr (.inl ⟨a, b, rfl, rfl⟩)
      | text b | icon b | button b => cases htextless
  | icon a =>
      cases m with
      | icon b =>
          cases htextless
          exact .inr (.inr (.inl ⟨a, rfl, rfl⟩))
      | text b | image b | button b => cases htextless
  | button a =>
      cases m with
      | button b => exact .inr (.inr (.inr ⟨a, b, rfl, rfl⟩))
      | text b | image b | icon b => cases htextless

/-- What is said of leaves without regard to texts is said of both. -/
theorem Leaf.Alike.eq_of {α : Type} {l m : Leaf} (h : l.Alike c m) (f : Leaf → α)
    (hf : ∀ l, f l.textless = f l) : f l = f m := by
  rw [← hf, h.textless, hf]

theorem Branch.Alike.eq_of {α : Type} {r s : Branch} (h : r.Alike c s) (f : Branch → α)
    (hf : ∀ r, f r.textless = f r) : f r = f s := by
  rw [← hf, h.textless, hf]

theorem Identity.Alike.label_eq {i j : Identity} (h : i.Alike c j) : i.label = j.label := by
  rw [label, label, h.name]

theorem Leaf.Alike.variant_eq {l m : Leaf} (h : l.Alike c m) : l.variant = m.variant :=
  h.eq_of Leaf.variant fun l => by cases l <;> rfl

theorem Branch.Alike.variant_eq {r s : Branch} (h : r.Alike c s) : r.variant = s.variant :=
  h.eq_of Branch.variant fun r => by cases r <;> rfl

theorem Branch.Alike.isGroup_eq {r s : Branch} (h : r.Alike c s) : r.isGroup = s.isGroup :=
  h.eq_of Branch.isGroup fun r => by cases r <;> rfl

/-- Only a repeater is like a repeater, and it is the same one. -/
theorem Branch.Alike.eq_repeater {r : RepeaterElement} {s : Branch}
    (h : (Branch.repeater r).Alike c s) : s = .repeater r := by
  have htextless := h.textless
  cases s with
  | repeater s => exact htextless.symm
  | container | card | component s => cases htextless

namespace Element.Alike

variable {e f : Element}

theorem identity (h : e.Alike c f) : e.identity.Alike c f.identity := by
  cases h with
  | leaf hi _ => exact hi
  | branch hi _ _ => exact hi

theorem id_eq (h : e.Alike c f) : e.id = f.id := h.identity.id

theorem box (h : e.Alike c f) : c.Moves e.box f.box := h.identity.box

theorem variant_eq (h : e.Alike c f) : e.variant = f.variant := by
  cases h with
  | leaf _ hl => exact hl.variant_eq
  | branch _ hr _ => exact hr.variant_eq

end Element.Alike

namespace Recognition

variable {n : Naming} {p p' : Placed} {ts ts' : List (Tree Placed)}

theorem baseName_eq (h : p.Alike c p') : baseName p = baseName p' := by
  rw [baseName, baseName, h.label_eq]

theorem alike_eq {a a' b b' : Tree Placed} (ha : a.Related (Placed.Alike c) a')
    (hb : b.Related (Placed.Alike c) b') : alike a b = alike a' b' := by
  simp only [alike, baseName_eq ha.item, baseName_eq hb.item, ha.item.componentId_eq,
    hb.item.componentId_eq, ha.item.kind_eq, hb.item.kind_eq, ha.children.length_eq,
    hb.children.length_eq]

theorem styleRefOf_eq (h : p.Alike c p')
    (hts : List.Forall₂ (Tree.Related (Placed.Alike c)) ts ts') :
    styleRefOf n p ts = styleRefOf n p' ts' := by
  rw [styleRefOf, styleRefOf, h.label_eq, h.id_eq, h.kind_eq, Related.isEmpty_eq hts]

theorem styleRefOfTree_eq {t t' : Tree Placed} (h : t.Related (Placed.Alike c) t') :
    styleRefOfTree n t = styleRefOfTree n t' := by
  cases h with
  | node hp hts => exact styleRefOf_eq hp hts

theorem identityOf_agree (h : p.Alike c p')
    (hts : List.Forall₂ (Tree.Related (Placed.Alike c)) ts ts') :
    Result.Agree (Identity.Alike c) (identityOf n p ts) (identityOf n p' ts') := by
  rw [identityOf, identityOf, styleRefOf_eq h hts]
  exact Result.agree_bind_of_eq rfl fun ref => .ok ⟨h.id_eq, h.name_eq, rfl, h.box⟩

theorem textOf_alike (h : p.Alike c p') :
    (Leaf.text (textOf n p)).Alike c (.text (textOf n p')) where
  textless := rfl
  same := fun hc => by rw [textOf, textOf, h.traits.same hc]

theorem button_agree (h : p.Alike c p')
    (hts : List.Forall₂ (Tree.Related (Placed.Alike c)) ts ts') :
    Result.Agree (Element.Alike c) (button n p ts) (button n p' ts') := by
  have htext := Role.textChild_related hts
  have htextId : ((Role.textChild? ts).bind fun t => t.item.id) =
      (Role.textChild? ts').bind fun t => t.item.id :=
    Related.bind_eq htext fun t t' ht => ht.item.id_eq
  rw [button, button, Role.buttonVariant_eq h,
    Result.mapM_option_eq htext fun t t' ht => styleRefOfTree_eq ht, htextId]
  refine (Result.agree_findM hts fun t t' ht => Role.isIconTree_eq ht).lift.bind
    fun icon icon' hicon => ?_
  rw [Result.mapM_option_eq hicon fun t t' ht => styleRefOfTree_eq ht,
    Related.bind_eq hicon fun t t' ht => ht.item.id_eq]
  refine Result.agree_bind_of_eq rfl fun iconRef => ?_
  refine (identityOf_agree h hts).bind fun i j hi => ?_
  refine Result.agree_bind_of_eq rfl fun variant => ?_
  refine Result.agree_bind_of_eq rfl fun textRef => ?_
  refine .ok (.leaf hi ⟨rfl, fun hc => ?_⟩)
  rw [Related.bind_eq htext fun t t' ht => congrArg Traits.text (ht.item.traits.same hc)]

theorem longerSide_eq {a b : Box} (h : c.Moves a b) : longerSide a = longerSide b := by
  simp only [longerSide, h.extent_eq]

theorem instanceProperties_eq (h : p.Alike c p') :
    instanceProperties n p = instanceProperties n p' := by
  have hproperties : p.properties = p'.properties :=
    h.traits.eq_of (fun t => t.properties) fun _ => rfl
  rw [instanceProperties, instanceProperties, hproperties]

def AlikePairs (c : Change) (x y : Tree Placed × Element) : Prop :=
  x.1.Related (Placed.Alike c) y.1 ∧ x.2.Alike c y.2

theorem zip_alike {es es' : List Element}
    (hts : List.Forall₂ (Tree.Related (Placed.Alike c)) ts ts')
    (hes : List.Forall₂ (Element.Alike c) es es') :
    List.Forall₂ (AlikePairs c) (ts.zip es) (ts'.zip es') := by
  induction hts generalizing es es' with
  | nil => exact .nil
  | cons ht _ ih =>
      cases hes with
      | nil => exact .nil
      | cons he hes => exact .cons ⟨ht, he⟩ (ih hes)

theorem runsFrom_related {α : Type} {R : α → α → Prop} {like : α → α → Bool}
    (hlike : ∀ a a' b b', R a a' → R b b' → like a b = like a' b') {a a' : α} (ha : R a a')
    {run run' : List α} (hrun : List.Forall₂ R run run') {xs ys : List α}
    (h : List.Forall₂ R xs ys) :
    List.Forall₂ (List.Forall₂ R) (runsFrom like a run xs) (runsFrom like a' run' ys) := by
  induction h generalizing a a' run run' with
  | nil => exact .cons (.cons ha (List.forall₂_reverse_iff.mpr hrun)) .nil
  | cons hb _ ih =>
      rw [runsFrom, runsFrom, hlike _ _ _ _ ha hb]
      split
      · exact ih ha (.cons hb hrun)
      · exact .cons (.cons ha (List.forall₂_reverse_iff.mpr hrun)) (ih hb .nil)

theorem runs_related {α : Type} {R : α → α → Prop} {like : α → α → Bool}
    (hlike : ∀ a a' b b', R a a' → R b b' → like a b = like a' b') {xs ys : List α}
    (h : List.Forall₂ R xs ys) :
    List.Forall₂ (List.Forall₂ R) (runs like xs) (runs like ys) := by
  cases h with
  | nil => exact .nil
  | cons ha h => exact runsFrom_related hlike ha .nil h

theorem layoutOr_eq {e f : Element} (h : e.Alike c f) : layoutOr e = layoutOr f := by
  cases h <;> rfl

theorem repeater_alike (h : p.Alike c p') {es es' : List Element}
    (hes : List.Forall₂ (Element.Alike c) es es') :
    (repeater n p es).Alike c (repeater n p' es') := by
  have hlayout : es.head?.map layoutOr = es'.head?.map layoutOr := by
    cases hes with
    | nil => rfl
    | cons he _ => exact congrArg some (layoutOr_eq he)
  rw [repeater, repeater, baseName_eq h, h.id_eq, hlayout]
  exact .branch ⟨rfl, rfl, rfl, h.box⟩ (.refl _) hes

theorem foldRun_alike {run run' : List (Tree Placed × Element)}
    (h : List.Forall₂ (AlikePairs c) run run') :
    List.Forall₂ (Element.Alike c) (foldRun n run) (foldRun n run') := by
  cases h with
  | nil => exact .nil
  | cons ha h =>
      cases h with
      | nil => exact .cons ha.2 .nil
      | cons hb h =>
          refine .cons (repeater_alike ha.1.item (.cons ha.2 (.cons hb.2 ?_))) .nil
          rw [List.forall₂_map_left_iff, List.forall₂_map_right_iff]
          exact h.imp fun _ _ h => h.2

theorem foldRuns_alike {es es' : List Element}
    (hts : List.Forall₂ (Tree.Related (Placed.Alike c)) ts ts')
    (hes : List.Forall₂ (Element.Alike c) es es') :
    List.Forall₂ (Element.Alike c) (foldRuns n ts es) (foldRuns n ts' es') :=
  Related.flatMap (runs_related (fun _ _ _ _ ha hb => alike_eq ha.1 hb.1) (zip_alike hts hes))
    fun _ _ _ h => foldRun_alike h

end Recognition

namespace Element

variable {n : Naming}

def AlikeLinked {α : Type} (R : α → α → Prop) (c : Change) (x y : α × PropertyTable) : Prop :=
  R x.1 y.1 ∧ (c ≠ .texts → x.2 = y.2)

theorem textless_linkLeaf (i : Identity) (t : PropertyTable) (l : Leaf) :
    (linkLeaf n i t l).1.textless = l.textless := by
  cases l with
  | text l =>
      rw [linkLeaf]
      split <;> rfl
  | image l => rfl
  | icon l => rfl
  | button l => rfl

theorem linkLeaf_eq {i j : Identity} (h : i.Alike c j) (t : PropertyTable) (l : Leaf) :
    linkLeaf n i t l = linkLeaf n j t l := by
  cases l with
  | text l => rw [linkLeaf, linkLeaf, nameOr, nameOr, h.label_eq]
  | image l => rw [linkLeaf, linkLeaf, nameOr, nameOr, h.label_eq]
  | icon l => rfl
  | button l => rfl

theorem linkLeaf_alike {i j : Identity} (hi : i.Alike c j) {l m : Leaf} (hl : l.Alike c m)
    {t u : PropertyTable} (ht : c ≠ .texts → t = u) :
    AlikeLinked (Leaf.Alike c) c (linkLeaf n i t l) (linkLeaf n j u m) := by
  have hsame (hc : c ≠ .texts) : linkLeaf n i t l = linkLeaf n j u m := by
    rw [ht hc, hl.same hc, linkLeaf_eq hi]
  refine ⟨⟨?_, fun hc => congrArg Prod.fst (hsame hc)⟩, fun hc => congrArg Prod.snd (hsame hc)⟩
  rw [textless_linkLeaf, textless_linkLeaf, hl.textless]

theorem linkAll_agree {es fs : List Element}
    (h : List.Forall₂ (fun e f => ∀ t u, (c ≠ .texts → t = u) →
      Result.Agree (AlikeLinked (Element.Alike c) c) (link n t e) (link n u f)) es fs)
    {t u : PropertyTable} (ht : c ≠ .texts → t = u) :
    Result.Agree (AlikeLinked (List.Forall₂ (Element.Alike c)) c) (linkAll n t es)
      (linkAll n u fs) := by
  induction h generalizing t u with
  | nil => exact .ok ⟨.nil, ht⟩
  | cons h _ ih =>
      rw [linkAll, linkAll]
      exact (h t u ht).bind fun x y hxy => (ih hxy.2).bind fun xs ys hxys =>
        .ok ⟨.cons hxy.1 hxys.1, hxys.2⟩

theorem link_agree {e f : Element} (h : e.Alike c f) :
    ∀ t u, (c ≠ .texts → t = u) →
      Result.Agree (AlikeLinked (Element.Alike c) c) (link n t e) (link n u f) := by
  -- on the element, for two tables that may well differ: texts make names collide or not, and
  -- what is alike afterwards must not depend on it
  induction e generalizing f with
  | leaf i l =>
      intro t u ht
      cases h with
      | leaf hi hl =>
          have hlinked := linkLeaf_alike (n := n) hi hl ht
          exact .ok ⟨.leaf hi hlinked.1, hlinked.2⟩
  | foreign i v => cases h
  | branch i r layout es ih =>
      intro t u ht
      cases h with
      | @branch _ j _ s _ _ fs hi hr hes =>
          have hall := linkAll_agree (Related.imp_mem hes ih) ht
          have hbranch : Result.Agree (AlikeLinked (Element.Alike c) c)
              (linkAll n t es >>= fun x => pure (branch i r layout x.1, x.2))
              (linkAll n u fs >>= fun x => pure (branch j s layout x.1, x.2)) :=
            hall.bind fun x y hxy => .ok ⟨.branch hi hr hxy.1, hxy.2⟩
          cases r with
          | repeater r =>
              -- linking does not go into a repeater
              rw [hr.eq_repeater]
              exact .ok ⟨.branch hi (.refl _) hes, ht⟩
          | container | card | component r =>
              have htextless := hr.textless
              cases s with
              | repeater s => cases htextless
              | container | card | component s => exact hbranch

theorem extractProperties_agree {es fs : List Element}
    (h : List.Forall₂ (Element.Alike c) es fs) :
    Result.Agree (fun x y => (c ≠ .texts → x.1 = y.1) ∧ List.Forall₂ (Element.Alike c) x.2 y.2)
      (extractProperties n es) (extractProperties n fs) := by
  have hall := linkAll_agree (n := n) (h.imp fun e f h => link_agree h)
    (t := {}) (u := {}) fun _ => rfl
  exact hall.bind fun x y hxy => .ok ⟨fun hc => by rw [hxy.2 hc], hxy.1⟩

end Element

namespace Recognition

variable {n : Naming}

theorem recognizeAll_agree {ts ts' : List (Tree Placed)}
    (h : List.Forall₂ (fun t t' => Result.Agree (Element.Alike c) (recognize n t)
      (recognize n t')) ts ts') :
    Result.Agree (List.Forall₂ (Element.Alike c)) (recognizeAll n ts) (recognizeAll n ts') := by
  induction h with
  | nil => exact .ok .nil
  | cons h _ ih =>
      rw [recognizeAll, recognizeAll]
      exact h.bind fun e f he => ih.bind fun es fs hes => .ok (.cons he hes)

/-- Layers that are alike are recognized as elements that are. -/
theorem recognize_agree {t t' : Tree Placed} (h : t.Related (Placed.Alike c) t') :
    Result.Agree (Element.Alike c) (recognize n t) (recognize n t') := by
  -- on the tree; the role is the same on both sides, so that both take the same case
  induction t generalizing t' with
  | node p ts ih =>
      cases h with
      | @node p p' ts ts' hp hts =>
          have hall := recognizeAll_agree (Related.imp_mem hts ih)
          have hid := identityOf_agree (n := n) hp hts
          rw [recognize, recognize, Role.of_eq hp hts]
          refine Result.agree_bind_of_eq rfl fun role => ?_
          cases role with
          | component =>
              refine hall.bind fun es fs hes => ?_
              refine (Element.extractProperties_agree hes).bind fun x y hxy => ?_
              refine hid.bind fun i j hi => ?_
              rw [hp.layout, hp.componentId_eq, hp.label_eq, instanceProperties_eq hp]
              exact .ok (.branch hi ⟨rfl, fun hc => by rw [hxy.1 hc]⟩ hxy.2)
          | text => exact hid.bind fun i j hi => .ok (.leaf hi (textOf_alike hp))
          | icon =>
              refine hid.bind fun i j hi => ?_
              rw [longerSide_eq hp.box, hi.styleRef]
              exact Result.agree_bind_of_eq rfl fun size => .ok (.leaf hi (.refl _))
          | image =>
              refine hid.bind fun i j hi => ?_
              rw [hp.fills_eq]
              exact .ok (.leaf hi (.refl _))
          | button => exact button_agree hp hts
          | card | container =>
              refine hid.bind fun i j hi => hall.bind fun es fs hes => ?_
              rw [hp.layout]
              exact .ok (.branch hi (.refl _) (foldRuns_alike hts hes))

end Recognition

end Mockup
