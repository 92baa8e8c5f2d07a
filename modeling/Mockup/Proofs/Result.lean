import Mathlib.Data.List.Forall2
import Mockup.Fault

namespace Mockup.Result

variable {ε α β : Type}

theorem ok_bind (a : α) (f : α → Except ε β) : (Except.ok a >>= f) = f a := rfl

theorem bind_eq_ok_iff {x : Except ε α} {f : α → Except ε β} {b : β} :
    x >>= f = .ok b ↔ ∃ a, x = .ok a ∧ f a = .ok b := by
  cases x <;> simp [bind, Except.bind]

theorem bind_eq_error_iff {x : Except ε α} {f : α → Except ε β} {fault : ε} :
    x >>= f = .error fault ↔ x = .error fault ∨ ∃ a, x = .ok a ∧ f a = .error fault := by
  cases x <;> simp [bind, Except.bind]

theorem pure_eq_ok_iff {a b : α} : (pure a : Except ε α) = .ok b ↔ a = b := by
  simp [pure, Except.pure]

theorem map_eq_ok_iff {x : Except ε α} {f : α → β} {b : β} :
    f <$> x = .ok b ↔ ∃ a, x = .ok a ∧ f a = b := by
  cases x <;> simp [Functor.map, Except.map]

theorem lift_eq_ok_iff {x : Number.Result α} {a : α} :
    (Number.Result.lift x : Result α) = .ok a ↔ x = .ok a := by
  cases x <;> simp [Number.Result.lift, Except.mapError]

theorem mapError_eq_ok_iff {ε' : Type} {f : ε → ε'} {x : Except ε α} {a : α} :
    x.mapError f = .ok a ↔ x = .ok a := by
  cases x <;> simp [Except.mapError]

theorem toOption_eq_some_iff {x : Except ε α} {a : α} : x.toOption = some a ↔ x = .ok a := by
  cases x <;> simp [Except.toOption]

theorem mapM_option_eq_ok_iff {f : α → Except ε β} {x : Option α} {y : Option β} :
    x.mapM f = .ok y ↔ (x = none ∧ y = none) ∨ ∃ a b, x = some a ∧ y = some b ∧ f a = .ok b := by
  cases x with
  | none =>
      change (pure none : Except ε (Option β)) = .ok y ↔ _
      rw [pure_eq_ok_iff]
      simp [eq_comm]
  | some a =>
      change some <$> f a = .ok y ↔ _
      rw [map_eq_ok_iff]
      simp [eq_comm, and_comm]

/-- What comes of an option that is mapped comes of what is in it. -/
theorem eq_some_iff_of_mapM_option {f : α → Except ε β} {x : Option α} {y : Option β}
    (h : x.mapM f = .ok y) {b : β} : y = some b ↔ ∃ a, x = some a ∧ f a = .ok b := by
  obtain ⟨rfl, rfl⟩ | ⟨a, c, rfl, rfl, hc⟩ := mapM_option_eq_ok_iff.mp h
  · simp
  · simp [hc]

theorem mem_of_findM_eq_ok {f : α → Except ε Bool} {xs : List α} {a : α}
    (h : xs.findM? f = .ok (some a)) : a ∈ xs := by
  induction xs with
  | nil => cases h
  | cons x xs ih =>
      rw [List.findM?] at h
      obtain ⟨b, -, h⟩ := bind_eq_ok_iff.mp h
      cases b with
      | true =>
          cases h
          exact List.mem_cons_self
      | false => exact List.mem_cons_of_mem _ (ih h)

theorem exists_mem_of_allM_eq_error {f : α → Except ε Bool} {xs : List α} {fault : ε}
    (h : xs.allM f = .error fault) : ∃ a ∈ xs, f a = .error fault := by
  induction xs with
  | nil => cases h
  | cons x xs ih =>
      rw [List.allM] at h
      rcases bind_eq_error_iff.mp h with h | ⟨b, -, h⟩
      · exact ⟨x, List.mem_cons_self, h⟩
      · cases b with
        | false => cases h
        | true =>
            obtain ⟨a, ha, hfault⟩ := ih h
            exact ⟨a, List.mem_cons_of_mem x ha, hfault⟩

/-- Nothing is found if every test is made and fails. -/
theorem anyM_eq_ok_false_iff {f : α → Except ε Bool} {xs : List α} :
    xs.anyM f = .ok false ↔ ∀ a ∈ xs, f a = .ok false := by
  induction xs with
  | nil => exact ⟨fun _ _ h => (List.not_mem_nil h).elim, fun _ => rfl⟩
  | cons x xs ih =>
      rw [List.anyM, bind_eq_ok_iff, List.forall_mem_cons, ← ih]
      constructor
      · rintro ⟨b, hb, h⟩
        cases b with
        | false => exact ⟨hb, h⟩
        | true => cases h
      · exact fun ⟨hx, hxs⟩ => ⟨false, hx, hxs⟩

theorem allM_eq_ok_true_iff {f : α → Except ε Bool} {xs : List α} :
    xs.allM f = .ok true ↔ ∀ a ∈ xs, f a = .ok true := by
  induction xs with
  | nil => simp [List.allM, pure, Except.pure]
  | cons x xs ih =>
      rw [List.allM, bind_eq_ok_iff, List.forall_mem_cons, ← ih]
      constructor
      · rintro ⟨b, hb, h⟩
        cases b with
        | false => cases h
        | true => exact ⟨hb, h⟩
      · rintro ⟨hx, hxs⟩
        exact ⟨true, hx, hxs⟩

theorem mapM_eq_ok_self {f : α → Except ε α} {xs : List α} (h : ∀ a ∈ xs, f a = .ok a) :
    xs.mapM f = .ok xs := by
  induction xs with
  | nil => rfl
  | cons a xs ih =>
      obtain ⟨ha, hxs⟩ := List.forall_mem_cons.mp h
      rw [List.mapM_cons, ha, ih hxs]
      rfl

theorem exists_of_mapM_eq_ok {f : α → Except ε β} {xs : List α} {ys : List β}
    (h : xs.mapM f = .ok ys) {y : β} (hy : y ∈ ys) : ∃ x ∈ xs, f x = .ok y := by
  induction xs generalizing ys with
  | nil =>
      cases h
      cases hy
  | cons x xs ih =>
      rw [List.mapM_cons] at h
      obtain ⟨b, hb, h⟩ := bind_eq_ok_iff.mp h
      obtain ⟨bs, hbs, h⟩ := bind_eq_ok_iff.mp h
      cases h
      rcases List.mem_cons.mp hy with rfl | hy
      · exact ⟨x, List.mem_cons_self, hb⟩
      · obtain ⟨a, ha, hf⟩ := ih hbs hy
        exact ⟨a, List.mem_cons_of_mem x ha, hf⟩

theorem exists_mem_of_mapM_eq_ok {f : α → Except ε β} {xs : List α} {ys : List β}
    (h : xs.mapM f = .ok ys) {x : α} (hx : x ∈ xs) : ∃ y ∈ ys, f x = .ok y := by
  induction xs generalizing ys with
  | nil => cases hx
  | cons a xs ih =>
      rw [List.mapM_cons] at h
      obtain ⟨b, hb, h⟩ := bind_eq_ok_iff.mp h
      obtain ⟨bs, hbs, h⟩ := bind_eq_ok_iff.mp h
      cases h
      rcases List.mem_cons.mp hx with rfl | hx
      · exact ⟨b, List.mem_cons_self, hb⟩
      · obtain ⟨y, hy, hf⟩ := ih hbs hx
        exact ⟨y, List.mem_cons_of_mem b hy, hf⟩

theorem mem_flatten_of_mapM_eq_ok {f : α → Except ε (List β)} {xs : List α} {yss : List (List β)}
    (h : xs.mapM f = .ok yss) {P : α → Prop} {b : β}
    (hf : ∀ a ∈ xs, ∀ ys, f a = .ok ys → (b ∈ ys ↔ P a)) : b ∈ yss.flatten ↔ ∃ a ∈ xs, P a := by
  rw [List.mem_flatten]
  constructor
  · rintro ⟨ys, hys, hb⟩
    obtain ⟨a, ha, heq⟩ := exists_of_mapM_eq_ok h hys
    exact ⟨a, ha, (hf a ha ys heq).mp hb⟩
  · rintro ⟨a, ha, hb⟩
    obtain ⟨ys, hys, heq⟩ := exists_mem_of_mapM_eq_ok h ha
    exact ⟨ys, hys, (hf a ha ys heq).mpr hb⟩

/-- What every step preserves holds at the end. -/
theorem foldlM_preserves {P : β → Prop} {f : β → α → Except ε β} {xs : List α}
    (hf : ∀ b, P b → ∀ a ∈ xs, ∀ b', f b a = .ok b' → P b') {b b' : β} (hb : P b)
    (h : xs.foldlM f b = .ok b') : P b' := by
  induction xs generalizing b with
  | nil =>
      cases h
      exact hb
  | cons a xs ih =>
      rw [List.foldlM_cons] at h
      obtain ⟨next, hnext, h⟩ := bind_eq_ok_iff.mp h
      exact ih (fun b hb a ha => hf b hb a (List.mem_cons_of_mem _ ha))
        (hf b hb a List.mem_cons_self next hnext) h

def Succeeds (x : Except ε α) : Prop := ∃ a, x = .ok a

theorem succeeds_ok (a : α) : Succeeds (.ok a : Except ε α) := ⟨a, rfl⟩

theorem Succeeds.ne_error {x : Except ε α} (h : Succeeds x) {fault : ε} : x ≠ .error fault := by
  obtain ⟨a, rfl⟩ := h
  exact fun herror => nomatch herror

theorem Succeeds.bind {x : Except ε α} {f : α → Except ε β} (hx : Succeeds x)
    (hf : ∀ a, x = .ok a → Succeeds (f a)) : Succeeds (x >>= f) := by
  obtain ⟨a, ha⟩ := hx
  obtain ⟨b, hb⟩ := hf a ha
  exact ⟨b, bind_eq_ok_iff.mpr ⟨a, ha, hb⟩⟩

theorem Succeeds.ite {c : Prop} [Decidable c] {x y : Except ε α} (hx : c → Succeeds x)
    (hy : ¬c → Succeeds y) : Succeeds (if c then x else y) := by
  by_cases hc : c
  · rw [if_pos hc]
    exact hx hc
  · rw [if_neg hc]
    exact hy hc

/-- What comes after an early return has to succeed only where it is reached. -/
theorem Succeeds.unlessReturned {c : Prop} [Decidable c] {a : α} {y : Except ε α}
    (hy : ¬c → Succeeds y) : Succeeds (if c then .ok a else y) :=
  .ite (fun _ => succeeds_ok a) hy

theorem Succeeds.lift {x : Number.Result α} (h : Succeeds x) :
    Succeeds (Number.Result.lift x : Result α) := by
  obtain ⟨a, ha⟩ := h
  exact ⟨a, lift_eq_ok_iff.mpr ha⟩

theorem succeeds_mapM_option {f : α → Except ε β} {x : Option α}
    (h : ∀ a, x = some a → Succeeds (f a)) : Succeeds (x.mapM f) := by
  cases x with
  | none => exact ⟨none, rfl⟩
  | some a =>
      obtain ⟨b, hb⟩ := h a rfl
      exact ⟨some b, mapM_option_eq_ok_iff.mpr (.inr ⟨a, b, rfl, rfl, hb⟩)⟩

theorem succeeds_findM {f : α → Except ε Bool} {xs : List α} (h : ∀ a ∈ xs, Succeeds (f a)) :
    Succeeds (xs.findM? f) := by
  induction xs with
  | nil => exact ⟨none, rfl⟩
  | cons a xs ih =>
      rw [List.findM?]
      refine (h a List.mem_cons_self).bind fun b _ => ?_
      cases b with
      | true => exact ⟨some a, rfl⟩
      | false => exact ih fun b hb => h b (List.mem_cons_of_mem a hb)

theorem succeeds_anyM {f : α → Except ε Bool} {xs : List α} (h : ∀ a ∈ xs, Succeeds (f a)) :
    Succeeds (xs.anyM f) := by
  induction xs with
  | nil => exact ⟨false, rfl⟩
  | cons a xs ih =>
      rw [List.anyM]
      refine (h a List.mem_cons_self).bind fun b _ => ?_
      cases b with
      | true => exact ⟨true, rfl⟩
      | false => exact ih fun b hb => h b (List.mem_cons_of_mem a hb)

def Yields (P : α → Prop) (x : Except ε α) : Prop := ∃ a, x = .ok a ∧ P a

section Yields

variable {P : α → Prop} {Q : β → Prop} {x : Except ε α} {f : α → Except ε β}

theorem yields_ok {a : α} (h : P a) : Yields P (.ok a : Except ε α) := ⟨a, rfl, h⟩

theorem Yields.succeeds (h : Yields P x) : Succeeds x := by
  obtain ⟨a, ha, -⟩ := h
  exact ⟨a, ha⟩

theorem Succeeds.yields (h : Succeeds x) : Yields (fun a => x = .ok a) x := by
  obtain ⟨a, ha⟩ := h
  exact ⟨a, ha, ha⟩

theorem Yields.of_eq_ok {a : α} (h : Yields P x) (ha : x = .ok a) : P a := by
  obtain ⟨b, hb, hPb⟩ := h
  exact Except.ok.inj (hb.symm.trans ha) ▸ hPb

theorem Yields.mono {P' : α → Prop} (hP : ∀ a, P a → P' a) (h : Yields P x) : Yields P' x := by
  obtain ⟨a, ha, hPa⟩ := h
  exact ⟨a, ha, hP a hPa⟩

theorem Yields.bind (hx : Yields P x) (hf : ∀ a, P a → Yields Q (f a)) : Yields Q (x >>= f) := by
  obtain ⟨a, ha, hPa⟩ := hx
  obtain ⟨b, hb, hQb⟩ := hf a hPa
  exact ⟨b, bind_eq_ok_iff.mpr ⟨a, ha, hb⟩, hQb⟩

/-- What comes after a result has to succeed where the result has its property. -/
theorem Yields.andThen (hx : Yields P x) (hf : ∀ a, P a → Succeeds (f a)) :
    Succeeds (x >>= f) := by
  obtain ⟨a, ha, hPa⟩ := hx
  obtain ⟨b, hb⟩ := hf a hPa
  exact ⟨b, bind_eq_ok_iff.mpr ⟨a, ha, hb⟩⟩

theorem Yields.lift {x : Number.Result α} (h : Yields P x) :
    Yields P (Number.Result.lift x : Result α) := by
  obtain ⟨a, ha, hPa⟩ := h
  exact ⟨a, lift_eq_ok_iff.mpr ha, hPa⟩

/-- Each of some results is taken on its own. -/
theorem yields_mapM {xs : List α} (h : ∀ a ∈ xs, Yields Q (f a)) :
    Yields (fun ys => ys.length = xs.length ∧ ∀ b ∈ ys, Q b) (xs.mapM f) := by
  induction xs with
  | nil => exact yields_ok ⟨rfl, by simp⟩
  | cons a xs ih =>
      obtain ⟨ha, hxs⟩ := List.forall_mem_cons.mp h
      rw [List.mapM_cons]
      refine ha.bind fun b hb => (ih hxs).bind fun bs ⟨hlength, hbs⟩ => yields_ok ?_
      exact ⟨congrArg Nat.succ hlength, List.forall_mem_cons.mpr ⟨hb, hbs⟩⟩

theorem succeeds_mapM {xs : List α} (h : ∀ a ∈ xs, Succeeds (f a)) : Succeeds (xs.mapM f) :=
  (yields_mapM fun a ha => (h a ha).yields.mono fun _ _ => trivial).succeeds

theorem succeeds_allM {f : α → Except ε Bool} {xs : List α} (h : ∀ a ∈ xs, Succeeds (f a)) :
    Succeeds (xs.allM f) := by
  induction xs with
  | nil => exact ⟨true, rfl⟩
  | cons a xs ih =>
      obtain ⟨ha, hxs⟩ := List.forall_mem_cons.mp h
      rw [List.allM]
      refine ha.bind fun b _ => ?_
      cases b with
      | true => exact ih hxs
      | false => exact ⟨false, rfl⟩

theorem succeeds_forM {f : α → Except ε PUnit} {xs : List α} (h : ∀ a ∈ xs, Succeeds (f a)) :
    Succeeds (xs.forM f) := by
  induction xs with
  | nil => exact succeeds_ok _
  | cons a xs ih =>
      obtain ⟨ha, hxs⟩ := List.forall_mem_cons.mp h
      exact ha.bind fun _ _ => ih hxs

/-- A fold keeps what each of its steps keeps. -/
theorem yields_foldlM {P : β → Prop} {f : β → α → Except ε β} {xs : List α}
    (h : ∀ b, P b → ∀ a ∈ xs, Yields P (f b a)) {b : β} (hb : P b) :
    Yields P (xs.foldlM f b) := by
  induction xs generalizing b with
  | nil => exact yields_ok hb
  | cons a xs ih =>
      rw [List.foldlM_cons]
      refine (h b hb a List.mem_cons_self).bind fun b' hb' => ih (fun b hb a ha => ?_) hb'
      exact h b hb a (List.mem_cons_of_mem _ ha)

theorem succeeds_foldlM {f : β → α → Except ε β} {xs : List α}
    (h : ∀ b, ∀ a ∈ xs, Succeeds (f b a)) (b : β) : Succeeds (xs.foldlM f b) :=
  (yields_foldlM (P := fun _ => True) (fun b _ a ha => (h b a ha).yields.mono fun _ _ => trivial)
    trivial).succeeds

end Yields

/-- A result that answers a question, unless it is a fault. -/
def Decides (P : Prop) (x : Except ε Bool) : Prop := ∀ b, x = .ok b → (b = true ↔ P)

section Decides

variable {P Q : Prop} {x y : Except ε Bool}

theorem decides_ok {b : Bool} (h : b = true ↔ P) : Decides P (.ok b : Except ε Bool) := by
  rintro b ⟨⟩
  exact h

theorem decides_error (fault : ε) : Decides P (.error fault : Except ε Bool) := nofun

theorem decides_false (h : ¬P) : Decides P (.ok false : Except ε Bool) :=
  decides_ok (by simp [h])

/-- The second question is asked only if the answer to the first one is yes. -/
theorem Decides.and (hx : Decides P x) (hy : Decides Q y) :
    Decides (P ∧ Q) (do if ← x then y else return false) := by
  cases x with
  | error fault => exact decides_error fault
  | ok b =>
      have hP := hx b rfl
      cases b with
      | true =>
          intro b hb
          rw [hy b hb, and_iff_right (hP.mp rfl)]
      | false => exact decides_false fun h => Bool.false_ne_true (hP.mpr h.1)

theorem Decides.anyM {p : α → Prop} {f : α → Except ε Bool} {xs : List α}
    (h : ∀ a ∈ xs, Decides (p a) (f a)) : Decides (∃ a ∈ xs, p a) (xs.anyM f) := by
  induction xs with
  | nil => exact decides_false (by simp)
  | cons a xs ih =>
      obtain ⟨ha, hxs⟩ := List.forall_mem_cons.mp h
      intro b hb
      rw [List.anyM] at hb
      obtain ⟨first, hfirst, hb⟩ := bind_eq_ok_iff.mp hb
      have hfirst := ha first hfirst
      cases first with
      | true =>
          cases hb
          exact ⟨fun _ => ⟨a, List.mem_cons_self, hfirst.mp rfl⟩, fun _ => rfl⟩
      | false =>
          have hnot : ¬p a := fun h => Bool.false_ne_true (hfirst.mpr h)
          rw [ih hxs b hb]
          simp [hnot]

end Decides

/-- A result that, if it is a fault, is one with a property. -/
def Blames (F : ε → Prop) (x : Except ε α) : Prop := ∀ fault, x = .error fault → F fault

section Blames

variable {F : ε → Prop} {x y : Except ε α} {f : α → Except ε β}

theorem blames_ok (a : α) : Blames F (.ok a : Except ε α) := nofun

theorem Succeeds.blames (hx : Succeeds x) : Blames F x := fun _ h => absurd h hx.ne_error

theorem Blames.mono {G : ε → Prop} (hFG : ∀ fault, F fault → G fault) (hx : Blames F x) :
    Blames G x :=
  fun fault h => hFG fault (hx fault h)

/-- Two parts of a result may change places if there is but one way in which they fail. -/
theorem bind_comm_of_blames {γ : Type} {fault : ε} {y : Except ε β} (hx : Blames (· = fault) x)
    (hy : Blames (· = fault) y) (f : α → β → Except ε γ) :
    (x >>= fun a => y >>= fun b => f a b) = y >>= fun b => x >>= fun a => f a b := by
  cases x with
  | ok a => cases y <;> rfl
  | error e =>
      obtain rfl := hx e rfl
      cases y with
      | ok b => rfl
      | error e' => exact congrArg Except.error (hy e' rfl).symm

theorem Blames.bind (hx : Blames F x) (hf : ∀ a, Blames F (f a)) : Blames F (x >>= f) := by
  intro fault h
  rcases bind_eq_error_iff.mp h with h | ⟨a, -, h⟩
  · exact hx fault h
  · exact hf a fault h

theorem Blames.ite {c : Prop} [Decidable c] (hx : Blames F x) (hy : Blames F y) :
    Blames F (if c then x else y) := by
  split
  · exact hx
  · exact hy

theorem Blames.unlessReturned {c : Prop} [Decidable c] {a : α} (hy : Blames F y) :
    Blames F (if c then .ok a else y) :=
  .ite (blames_ok a) hy

theorem Blames.anyM {f : α → Except ε Bool} {xs : List α} (h : ∀ a ∈ xs, Blames F (f a)) :
    Blames F (xs.anyM f) := by
  induction xs with
  | nil => exact blames_ok _
  | cons a xs ih =>
      obtain ⟨ha, hxs⟩ := List.forall_mem_cons.mp h
      rw [List.anyM]
      refine ha.bind fun b => ?_
      cases b with
      | true => exact blames_ok _
      | false => exact ih hxs

theorem Blames.foldlM {f : β → α → Except ε β} {xs : List α}
    (h : ∀ b, ∀ a ∈ xs, Blames F (f b a)) (b : β) : Blames F (xs.foldlM f b) := by
  induction xs generalizing b with
  | nil => exact blames_ok _
  | cons a xs ih =>
      rw [List.foldlM_cons]
      exact (h b a List.mem_cons_self).bind fun b' =>
        ih (fun b a ha => h b a (List.mem_cons_of_mem _ ha)) b'

end Blames

/-- A result that is the first of some faults, or none if there are none. -/
inductive FailsFirst : List ε → Except ε α → Prop
  | succeeds (a : α) : FailsFirst [] (.ok a)
  | fails (fault : ε) (faults : List ε) : FailsFirst (fault :: faults) (.error fault)

theorem FailsFirst.succeeds_of_nil {x : Except ε α} (h : FailsFirst [] x) : Succeeds x := by
  cases h
  exact succeeds_ok _

/-- Two parts of a result meet their faults one after the other. -/
theorem FailsFirst.bind {faults more : List ε} {x : Except ε α} {f : α → Except ε β}
    (hx : FailsFirst faults x) (hf : ∀ a, x = .ok a → FailsFirst more (f a)) :
    FailsFirst (faults ++ more) (x >>= f) := by
  cases hx with
  | succeeds a => exact hf a rfl
  | fails fault faults => exact .fails fault _

/-- A part that cannot fail meets no more faults. -/
theorem FailsFirst.bind_ok {faults : List ε} {x : Except ε α} {f : α → Except ε β}
    (hx : FailsFirst faults x) (hf : ∀ a, x = .ok a → Succeeds (f a)) :
    FailsFirst faults (x >>= f) := by
  cases hx with
  | succeeds a =>
      obtain ⟨b, hb⟩ := hf a rfl
      change FailsFirst [] (f a)
      rw [hb]
      exact .succeeds b
  | fails fault faults => exact .fails fault faults

/-- A walk meets the faults of one thing after those of the other, whatever it carries along. -/
theorem failsFirst_flatMap {σ : Type} (walk : σ → List α → Except ε β) {faults : α → List ε}
    {as : List α} (nil : ∀ s, Succeeds (walk s []))
    (cons : ∀ a ∈ as, ∀ rest, (∀ s, FailsFirst (rest.flatMap faults) (walk s rest)) →
      ∀ s, FailsFirst (faults a ++ rest.flatMap faults) (walk s (a :: rest))) (s : σ) :
    FailsFirst (as.flatMap faults) (walk s as) := by
  induction as generalizing s with
  | nil =>
      obtain ⟨b, hb⟩ := nil s
      rw [hb]
      exact .succeeds b
  | cons a as ih =>
      have hrest := ih fun b hb => cons b (List.mem_cons_of_mem a hb)
      exact cons a List.mem_cons_self as hrest s

/-- Faults that come a second time are not met. -/
theorem failsFirst_append_self {faults : List ε} {x : Except ε α} :
    FailsFirst (faults ++ faults) x ↔ FailsFirst faults x := by
  cases faults with
  | nil => rfl
  | cons fault faults =>
      constructor
      · rintro ⟨⟩
        exact .fails fault faults
      · rintro ⟨⟩
        exact .fails fault _

theorem FailsFirst.eq_error_iff {faults : List ε} {x : Except ε α} (h : FailsFirst faults x)
    {fault : ε} : x = .error fault ↔ faults.head? = some fault := by
  cases h <;> simp

end Mockup.Result
