import Mockup.Proofs.Number.Faults
import Mockup.Proofs.Search
import Mockup.Proofs.Tree.Occurrence
import Mockup.Screen.Modal

namespace Mockup

open Result

namespace Modal

def Close (tolerance : Number) (a b : Number.Result Number) : Prop :=
  ∃ x y d, a = .ok x ∧ b = .ok y ∧ x.sub y = .ok d ∧ d.abs.le tolerance = true

def OnBoxes (P : Box → Box → Prop) (layer parent : Layer) : Prop :=
  ∃ a, layer.box = some a ∧ ∃ b, parent.box = some b ∧ P a b

def Covers : Layer → Layer → Prop :=
  OnBoxes fun a b => ∀ axis, Close coverTolerance (a.extent axis) (b.extent axis)

def AlignsBottom : Layer → Layer → Prop := OnBoxes fun a b => Close edgeTolerance a.bottom b.bottom

def AlignsTop : Layer → Layer → Prop := OnBoxes fun a b => Close edgeTolerance a.top b.top

/-- A solid fill through which one can see, but not too well. -/
def IsSeeThrough (f : Fill) : Prop :=
  ∃ c o a alpha, f.solid? = some c ∧ f.opacity = some o ∧ c.alpha = some a ∧ o.mul a = .ok alpha ∧
    scrimMinimum.lt alpha = true ∧ alpha.lt scrimMaximum = true

structure IsScrim (layer screen : Layer) : Prop where
  kind : layer.isKind ["FRAME", "GROUP"] = true
  covers : Covers layer screen
  fill : ∃ f ∈ layer.fills, IsSeeThrough f

def IsRound (radius : Option Number) : Prop := ∃ n, radius = some n ∧ Number.lt 0 n = true

def HasCorners (round sharp : Corners → Option Number × Option Number) (layer : Layer) : Prop :=
  ∃ c, corners? layer = some c ∧ (IsRound (round c).1 ∧ IsRound (round c).2) ∧
    isSharp (sharp c).1 = true ∧ isSharp (sharp c).2 = true

def upper (c : Corners) : Option Number × Option Number := (c.topLeft, c.topRight)

def lower (c : Corners) : Option Number × Option Number := (c.bottomRight, c.bottomLeft)

/-- The tests of sheets, with the kind of sheet that passes each. -/
inductive PassesAs (layer parent : Layer) : SheetKind → Prop
  | bottomCorners (hcorners : HasCorners upper lower layer) (hedge : AlignsBottom layer parent) :
      PassesAs layer parent .bottom
  | topCorners (hcorners : HasCorners lower upper layer) (hedge : AlignsTop layer parent) :
      PassesAs layer parent .top
  | bottomName (hname : hasSheetName layer = true) (hedge : AlignsBottom layer parent) :
      PassesAs layer parent .bottom
  | topName (hname : hasSheetName layer = true) (hedge : AlignsTop layer parent) :
      PassesAs layer parent .top

def IsTall (layer : Layer) : Prop :=
  ∃ b, layer.box = some b ∧ ∃ h, b.height = some h ∧ h.lt minimumHeight = false

/-- A layer below the top of a tree that passes a test of sheets in its parent and is not small;
neither is any layer between it and the top. -/
def IsSheet (o : Occurrence Layer) (kind : SheetKind) : Prop :=
  ∃ parent rest, o.around = parent :: rest ∧ PassesAs o.tree.item parent.item kind ∧
    ∀ u ∈ o.tree :: o.around.dropLast, IsTall u.item

def IsOverlay (screen : Layer) (t : Document) : Prop :=
  IsScrim t.item screen ∧ ∃ o ∈ t.occurrences, ∃ kind, IsSheet o kind

section Tests

variable {layer parent : Layer}

theorem near_decides (tolerance : Number) (a b : Number.Result Number) :
    Decides (Close tolerance a b) (do near tolerance (← a) (← b)) :=
  Number.difference_decides (fun d => d.abs.le tolerance) a b

theorem onBoxes_decides {test : Box → Box → Number.Result Bool} {P : Box → Box → Prop}
    (htest : ∀ a b, Decides (P a b) (test a b)) (layer parent : Layer) :
    Decides (OnBoxes P layer parent) (match layer.box, parent.box with
      | some a, some b => test a b
      | _, _ => .ok false) := by
  rw [OnBoxes]
  cases layer.box with
  | none => exact decides_false (by simp)
  | some a =>
      cases parent.box with
      | none => exact decides_false (by simp)
      | some b => simpa using htest a b

theorem coversParent_decides (layer parent : Layer) :
    Decides (Covers layer parent) (coversParent layer parent) := by
  refine onBoxes_decides (fun a b answer h => ?_) layer parent
  have hboth := ((near_decides coverTolerance (a.extent .horizontal) (b.extent .horizontal)).and
    (near_decides coverTolerance (a.extent .vertical) (b.extent .vertical))) answer h
  rw [hboth]
  constructor
  · rintro ⟨hwidth, hheight⟩ (_ | _)
    · exact hwidth
    · exact hheight
  · exact fun h => ⟨h .horizontal, h .vertical⟩

theorem alignsBottom_decides (layer parent : Layer) :
    Decides (AlignsBottom layer parent) (alignsBottom layer parent) :=
  onBoxes_decides (fun _ _ => near_decides _ _ _) layer parent

theorem alignsTop_decides (layer parent : Layer) :
    Decides (AlignsTop layer parent) (alignsTop layer parent) :=
  onBoxes_decides (fun _ _ => near_decides _ _ _) layer parent

theorem isSeeThrough_decides (f : Fill) : Decides (IsSeeThrough f) (isScrimFill f) := by
  rw [isScrimFill.eq_def]
  split
  · next hnone =>
      refine decides_false ?_
      rintro ⟨c, o, a, alpha, hc, -⟩
      cases hnone.symm.trans hc
  · exact decides_error _
  · next c o hsolid hopacity =>
      intro answer h
      obtain ⟨a, ha, h⟩ := bind_eq_ok_iff.mp h
      obtain ⟨alpha, halpha, h⟩ := bind_eq_ok_iff.mp h
      rw [← pure_eq_ok_iff.mp h, Bool.and_eq_true]
      constructor
      · exact fun hlt => ⟨c, o, a, alpha, hsolid, hopacity, Number.known_eq_ok_iff.mp ha, halpha, hlt⟩
      · rintro ⟨c', o', a', alpha', hc, ho, ha', hmul, hlt⟩
        cases hsolid.symm.trans hc
        cases hopacity.symm.trans ho
        cases ha.symm.trans (Number.known_eq_ok_iff.mpr ha')
        cases halpha.symm.trans hmul
        exact hlt

theorem isScrim_decides (layer screen : Layer) :
    Decides (IsScrim layer screen) (isScrim layer screen) := by
  intro answer h
  rw [isScrim] at h
  cases hkind : layer.isKind ["FRAME", "GROUP"] with
  | false =>
      rw [hkind] at h
      exact decides_false (fun hscrim => Bool.false_ne_true (hkind.symm.trans hscrim.kind)) answer h
  | true =>
      rw [hkind] at h
      obtain ⟨covers, hcovers, h⟩ := bind_eq_ok_iff.mp h
      have hcovers := coversParent_decides layer screen covers hcovers
      cases covers with
      | false =>
          refine decides_false (fun hscrim => ?_) answer h
          exact Bool.false_ne_true (hcovers.mpr hscrim.covers)
      | true =>
          rw [Decides.anyM (fun f _ => isSeeThrough_decides f) answer h]
          exact ⟨fun hfill => ⟨hkind, hcovers.mp rfl, hfill⟩, IsScrim.fill⟩

theorem areRound_decides (a b : Option Number) :
    Decides (IsRound a ∧ IsRound b) (areRound a b) := by
  have hround := Number.known_decides (P := fun n => Number.lt 0 n = true) fun _ => Iff.rfl
  have hboth := (hround a).and (hround b)
  cases a with
  | none => exact decides_error _
  | some a => exact hboth

theorem isTall_decides (layer : Layer) : Decides (IsTall layer) (isTallEnough layer) := by
  rw [IsTall, isTallEnough]
  cases layer.box with
  | none => exact decides_false (by simp)
  | some b =>
      simp only [Option.some.injEq, exists_eq_left']
      exact Number.known_decides (fun h => .of_eq (Bool.not_eq_true' (h.lt minimumHeight))) b.height

theorem cornersPass_decides {test : Corners → Number.Result Bool} {P : Corners → Prop}
    (htest : ∀ c, Decides (P c) (test c)) (layer : Layer) :
    Decides (∃ c, corners? layer = some c ∧ P c) (cornersPass test layer) := by
  rw [cornersPass]
  cases corners? layer with
  | none => exact decides_false (by simp)
  | some c => simpa using htest c

theorem topCorners_decides (layer : Layer) :
    Decides (HasCorners upper lower layer) (cornersPass hasTopCorners layer) := by
  refine cornersPass_decides (fun c answer h => ?_) layer
  obtain ⟨round, hround, h⟩ := bind_eq_ok_iff.mp h
  rw [← pure_eq_ok_iff.mp h, Bool.and_eq_true, Bool.and_eq_true,
    areRound_decides _ _ round hround, and_assoc]
  exact Iff.rfl

theorem bottomCorners_decides (layer : Layer) :
    Decides (HasCorners lower upper layer) (cornersPass hasBottomCorners layer) := by
  refine cornersPass_decides (fun c answer h => ?_) layer
  have hsharp : Decides (isSharp c.topLeft = true ∧ isSharp c.topRight = true)
      (.ok (isSharp c.topLeft && isSharp c.topRight) : Number.Result Bool) :=
    decides_ok (by rw [Bool.and_eq_true])
  rw [hsharp.and (areRound_decides c.bottomRight c.bottomLeft) answer h, and_comm]
  exact Iff.rfl

section Finds

variable {P : SheetKind → Prop} {x : Number.Result (Option SheetKind)} {A B : Prop}
  {a b : Number.Result Bool}

theorem finds_unless (kind : SheetKind) (hb : Decides B b) (hx : FindsAny P x) :
    FindsAny (fun k => (k = kind ∧ B) ∨ P k) (do if ← b then return some kind else x) := by
  intro found h
  obtain ⟨answer, hanswer, h⟩ := bind_eq_ok_iff.mp h
  have hB := hb answer hanswer
  cases answer with
  | true =>
      rw [← pure_eq_ok_iff.mp h]
      exact ⟨fun k hk => .inl ⟨(Option.some.inj hk).symm, hB.mp rfl⟩, nofun⟩
  | false =>
      obtain ⟨hsome, hnone⟩ := hx found h
      refine ⟨fun k hk => .inr (hsome k hk), fun hfound k => ?_⟩
      rintro (⟨-, h⟩ | h)
      · exact Bool.false_ne_true (hB.mpr h)
      · exact hnone hfound k h

theorem finds_unlessBoth (kind : SheetKind) (ha : Decides A a) (hb : Decides B b)
    (hx : FindsAny P x) :
    FindsAny (fun k => (k = kind ∧ A ∧ B) ∨ P k)
      (do if ← a then if ← b then return some kind else x else x) := by
  intro found h
  obtain ⟨answer, hanswer, h⟩ := bind_eq_ok_iff.mp h
  have hA := ha answer hanswer
  cases answer with
  | true =>
      have hA := hA.mp rfl
      simpa only [hA, true_and] using finds_unless kind hb hx found h
  | false =>
      have hA : ¬A := fun h => Bool.false_ne_true (hA.mpr h)
      simpa only [hA, false_and, and_false, false_or] using hx found h

end Finds

theorem passesAs_iff {layer parent : Layer} {k : SheetKind} :
    PassesAs layer parent k ↔
      (k = .bottom ∧ HasCorners upper lower layer ∧ AlignsBottom layer parent) ∨
      (k = .top ∧ HasCorners lower upper layer ∧ AlignsTop layer parent) ∨
      hasSheetName layer = true ∧
        ((k = .bottom ∧ AlignsBottom layer parent) ∨ k = .top ∧ AlignsTop layer parent) := by
  constructor
  · rintro (⟨hcorners, hedge⟩ | ⟨hcorners, hedge⟩ | ⟨hname, hedge⟩ | ⟨hname, hedge⟩)
    · exact .inl ⟨rfl, hcorners, hedge⟩
    · exact .inr (.inl ⟨rfl, hcorners, hedge⟩)
    · exact .inr (.inr ⟨hname, .inl ⟨rfl, hedge⟩⟩)
    · exact .inr (.inr ⟨hname, .inr ⟨rfl, hedge⟩⟩)
  · rintro (⟨rfl, hcorners, hedge⟩ | ⟨rfl, hcorners, hedge⟩ |
      ⟨hname, ⟨rfl, hedge⟩ | ⟨rfl, hedge⟩⟩)
    · exact .bottomCorners hcorners hedge
    · exact .topCorners hcorners hedge
    · exact .bottomName hname hedge
    · exact .topName hname hedge

/-- The kind that is told of a layer is that of a test that it passes, and there is none only if it
passes none. -/
theorem finds_sheetKind? (layer parent : Layer) :
    FindsAny (PassesAs layer parent) (sheetKind? layer parent) := by
  have hbottom := alignsBottom_decides layer parent
  have htop := alignsTop_decides layer parent
  have hname : FindsAny (fun k => hasSheetName layer = true ∧
      ((k = .bottom ∧ AlignsBottom layer parent) ∨ k = .top ∧ AlignsTop layer parent)) (do
        if hasSheetName layer then
          if ← alignsBottom layer parent then return some SheetKind.bottom
          if ← alignsTop layer parent then return some .top
        return none) := by
    cases hasSheetName layer with
    | false => exact finds_none (by simp)
    | true =>
        have hedges := finds_unless .bottom hbottom
          (finds_unless .top htop (finds_none fun _ => not_false))
        simpa only [true_and, or_false, if_true] using hedges
  have hfinds := finds_unlessBoth .bottom (topCorners_decides layer) hbottom
    (finds_unlessBoth .top (bottomCorners_decides layer) htop hname)
  intro found h
  simpa only [passesAs_iff] using hfinds found h

end Tests

section Find

variable {screen layer : Layer} {t overlay parent : Document} {ts rest : List Document}

def IsFound (o : Occurrence Layer) (found : Layer × SheetKind) : Prop :=
  o.tree.item = found.1 ∧ IsSheet o found.2

def IsOpen (around : List Document) : Prop := ∀ u ∈ around.dropLast, IsTall u.item

theorem findsFirst_of_not_isTall (h : ¬IsTall t.item) :
    FindsFirst IsFound (t.occurrencesIn (parent :: rest)) none := by
  refine .of_forall_not ?_
  rintro o ho found ⟨-, _, _, -, -, htall⟩
  obtain ⟨inner, haround, ht⟩ := Tree.exists_inner_of_mem_occurrencesIn ho
  rw [haround, List.dropLast_append_of_ne_nil (List.cons_ne_nil _ _)] at htall
  exact h (htall t (List.cons_subset_cons _ (List.subset_append_left _ _) ht))

theorem sheetInAny?_findsFirst {around : List Document}
    (h : ∀ t ∈ ts, ∀ found, sheetIn? layer t = .ok found →
      FindsFirst IsFound (t.occurrencesIn around) found) {found : Option (Layer × SheetKind)}
    (hfound : sheetInAny? layer ts = .ok found) :
    FindsFirst IsFound (ts.flatMap (Tree.occurrencesIn around)) found := by
  induction ts with
  | nil =>
      cases hfound
      exact .nil
  | cons t ts ih =>
      obtain ⟨ht, hts⟩ := List.forall_mem_cons.mp h
      rw [sheetInAny?] at hfound
      obtain ⟨first, hfirst, hfound⟩ := bind_eq_ok_iff.mp hfound
      rw [List.flatMap_cons]
      cases first with
      | some first =>
          cases hfound
          exact (ht _ hfirst).append_some
      | none => exact (ht _ hfirst).append_none (ih hts hfound)

/-- The pruned search finds the first sheet of all that lie in a tree. -/
theorem sheetIn?_findsFirst (hopen : IsOpen (parent :: rest))
    {found : Option (Layer × SheetKind)} (hfound : sheetIn? parent.item t = .ok found) :
    FindsFirst IsFound (t.occurrencesIn (parent :: rest)) found := by
  induction t using Tree.induct generalizing parent rest found with
  | node layer ts ih =>
      rw [sheetIn?] at hfound
      obtain ⟨tall, htall, hfound⟩ := bind_eq_ok_iff.mp hfound
      have htall := isTall_decides layer tall htall
      cases tall with
      | false =>
          cases hfound
          exact findsFirst_of_not_isTall fun h => Bool.false_ne_true (htall.mpr h)
      | true =>
          have htall : IsTall layer := htall.mp rfl
          have hbelow : IsOpen (.node layer ts :: parent :: rest) :=
            List.forall_mem_cons.mpr ⟨htall, hopen⟩
          obtain ⟨kind, hkind, hfound⟩ := bind_eq_ok_iff.mp hfound
          obtain ⟨hsome, hnone⟩ := finds_sheetKind? layer parent.item kind hkind
          rw [Tree.occurrencesIn_node]
          cases kind with
          | some kind =>
              cases hfound
              exact .here ⟨rfl, parent, rest, rfl, hsome kind rfl, hbelow⟩
          | none =>
              -- the layer is no sheet itself, and not in the way of those below it
              refine .later ?_ (sheetInAny?_findsFirst (fun t ht found h => ?_) hfound)
              · rintro found ⟨-, p, rest', haround, hpasses, -⟩
                cases haround
                exact hnone rfl _ hpasses
              · exact ih t ht hbelow h

end Find

end Modal

end Mockup
