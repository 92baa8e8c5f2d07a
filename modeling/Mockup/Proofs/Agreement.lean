import Mathlib.Data.List.Forall2
import Mockup.Proofs.Result

namespace Mockup

namespace Related

variable {α β γ δ : Type} {R : α → β → Prop} {xs : List α} {ys : List β}

theorem imp_mem {S : α → β → Prop} (h : List.Forall₂ R xs ys)
    (hRS : ∀ a ∈ xs, ∀ b, R a b → S a b) : List.Forall₂ S xs ys := by
  induction h with
  | nil => exact .nil
  | cons hab _ ih =>
      exact .cons (hRS _ List.mem_cons_self _ hab)
        (ih fun a ha => hRS a (List.mem_cons_of_mem _ ha))

theorem comp_mem {S : β → γ → Prop} {T : α → γ → Prop} {zs : List γ} (h : List.Forall₂ R xs ys)
    (h' : List.Forall₂ S ys zs) (hT : ∀ a ∈ xs, ∀ b c, R a b → S b c → T a c) :
    List.Forall₂ T xs zs := by
  induction h generalizing zs with
  | nil =>
      cases h'
      exact .nil
  | cons hab _ ih =>
      cases h' with
      | cons hbc h' =>
          exact .cons (hT _ List.mem_cons_self _ _ hab hbc)
            (ih h' fun a ha => hT a (List.mem_cons_of_mem _ ha))

theorem exists_of_mem {b : β} (h : List.Forall₂ R xs ys) (hb : b ∈ ys) : ∃ a ∈ xs, R a b := by
  induction h with
  | nil => cases hb
  | cons ha _ ih =>
      rcases List.mem_cons.mp hb with rfl | hb
      · exact ⟨_, List.mem_cons_self, ha⟩
      · obtain ⟨a, hmem, hR⟩ := ih hb
        exact ⟨a, List.mem_cons_of_mem _ hmem, hR⟩

theorem isEmpty_eq (h : List.Forall₂ R xs ys) : xs.isEmpty = ys.isEmpty := by
  cases h <;> rfl

theorem map_eq {f : α → γ} {g : β → γ} (h : List.Forall₂ R xs ys)
    (hfg : ∀ a b, R a b → f a = g b) : xs.map f = ys.map g := by
  rw [← List.forall₂_eq_eq_eq, List.forall₂_map_left_iff, List.forall₂_map_right_iff]
  exact h.imp hfg

theorem eq_map {f : α → β} (h : List.Forall₂ R xs ys) (hf : ∀ a ∈ xs, ∀ b, R a b → b = f a) :
    ys = xs.map f := by
  rw [← List.forall₂_eq_eq_eq, List.forall₂_map_right_iff]
  exact (imp_mem h hf).flip

theorem flatMap_eq {f : α → List γ} {g : β → List γ} (h : List.Forall₂ R xs ys)
    (hfg : ∀ a ∈ xs, ∀ b, R a b → f a = g b) : xs.flatMap f = ys.flatMap g := by
  rw [List.flatMap_def, List.flatMap_def, map_eq (imp_mem h hfg) fun _ _ h => h]

theorem flatMap {f : α → List γ} {g : β → List δ} {S : γ → δ → Prop} (h : List.Forall₂ R xs ys)
    (hfg : ∀ a ∈ xs, ∀ b, R a b → List.Forall₂ S (f a) (g b)) :
    List.Forall₂ S (xs.flatMap f) (ys.flatMap g) := by
  induction h with
  | nil => exact .nil
  | cons hab _ ih =>
      rw [List.flatMap_cons, List.flatMap_cons]
      exact List.rel_append (hfg _ List.mem_cons_self _ hab)
        (ih fun a ha => hfg a (List.mem_cons_of_mem _ ha))

theorem find? {p : α → Bool} {q : β → Bool} (h : List.Forall₂ R xs ys)
    (hpq : ∀ a b, R a b → p a = q b) : Option.Rel R (xs.find? p) (ys.find? q) := by
  induction h with
  | nil => exact .none
  | @cons a b xs ys hab _ ih =>
      rw [List.find?_cons, List.find?_cons, hpq a b hab]
      cases q b with
      | true => exact .some hab
      | false => exact ih

theorem isNone_eq {x : Option α} {y : Option β} (h : Option.Rel R x y) : x.isNone = y.isNone := by
  cases h <;> rfl

theorem option_map {x : Option α} {y : Option β} {f : α → γ} {g : β → δ} {S : γ → δ → Prop}
    (h : Option.Rel R x y) (hfg : ∀ a b, R a b → S (f a) (g b)) :
    Option.Rel S (x.map f) (y.map g) := by
  cases h with
  | none => exact .none
  | some h => exact .some (hfg _ _ h)

theorem option_map_eq {x : Option α} {y : Option β} {f : α → γ} {g : β → γ}
    (h : Option.Rel R x y) (hfg : ∀ a b, R a b → f a = g b) : x.map f = y.map g := by
  cases h with
  | none => rfl
  | some h => exact congrArg some (hfg _ _ h)

theorem bind_eq {x : Option α} {y : Option β} {f : α → Option γ} {g : β → Option γ}
    (h : Option.Rel R x y) (hfg : ∀ a b, R a b → f a = g b) : x.bind f = y.bind g := by
  cases h with
  | none => rfl
  | some h => exact hfg _ _ h

theorem getD {x : Option α} {y : Option β} (h : Option.Rel R x y) {a : α} {b : β} (hab : R a b) :
    R (x.getD a) (y.getD b) := by
  cases h with
  | none => exact hab
  | some h => exact h

/-- Items sort in the same way if they compare in the same way. -/
theorem mergeSort {p : α → α → Bool} {q : β → β → Bool} (h : List.Forall₂ R xs ys)
    (hpq : ∀ a b a' b', R a b → R a' b' → p a a' = q b b') :
    List.Forall₂ R (xs.mergeSort p) (ys.mergeSort q) := by
  -- both are read off the sorted list of pairs
  obtain ⟨hlength, hR⟩ := List.forall₂_iff_zip.mp h
  have hfst := List.map_mergeSort (r := fun u v : α × β => p u.1 v.1) (s := p) (f := Prod.fst)
    (l := xs.zip ys) fun _ _ _ _ => rfl
  have hsnd := List.map_mergeSort (r := fun u v : α × β => p u.1 v.1) (s := q) (f := Prod.snd)
    (l := xs.zip ys) fun u hu v hv => hpq _ _ _ _ (hR hu) (hR hv)
  rw [List.map_fst_zip (Nat.le_of_eq hlength)] at hfst
  rw [List.map_snd_zip (Nat.le_of_eq hlength.symm)] at hsnd
  rw [← hfst, ← hsnd, List.forall₂_map_left_iff, List.forall₂_map_right_iff, List.forall₂_same]
  exact fun u hu => hR (List.mem_mergeSort.mp hu)

end Related

namespace Result

variable {ε α β γ δ : Type} {R : α → β → Prop} {S : γ → δ → Prop}

inductive Agree (R : α → β → Prop) : Except ε α → Except ε β → Prop
  | ok {a : α} {b : β} (h : R a b) : Agree R (.ok a) (.ok b)
  | error (f : ε) : Agree R (.error f) (.error f)

theorem agree_eq_iff {x y : Except ε α} : Agree (fun a b => a = b) x y ↔ x = y := by
  constructor
  · rintro (⟨rfl⟩ | f) <;> rfl
  · rintro rfl
    cases x with
    | ok a => exact .ok rfl
    | error f => exact .error f

namespace Agree

variable {x : Except ε α} {y : Except ε β}

theorem bind {f : α → Except ε γ} {g : β → Except ε δ} (h : Agree R x y)
    (hfg : ∀ a b, R a b → Agree S (f a) (g b)) : Agree S (x >>= f) (y >>= g) := by
  cases h with
  | ok h => exact hfg _ _ h
  | error e => exact .error e

/-- Runs with one result after results that agree. -/
theorem bind_eq {f : α → Except ε γ} {g : β → Except ε γ} (h : Agree R x y)
    (hfg : ∀ a b, R a b → f a = g b) : (x >>= f) = (y >>= g) := by
  cases h with
  | ok h => exact hfg _ _ h
  | error e => rfl

theorem map {f : α → γ} {g : β → δ} (h : Agree R x y) (hfg : ∀ a b, R a b → S (f a) (g b)) :
    Agree S (f <$> x) (g <$> y) := by
  cases h with
  | ok h => exact .ok (hfg _ _ h)
  | error e => exact .error e

theorem lift {x : Number.Result α} {y : Number.Result β} (h : Agree R x y) :
    Agree R (Number.Result.lift x : Result α) (Number.Result.lift y) := by
  cases h with
  | ok h => exact .ok h
  | error e => exact .error (Fault.number e)

end Agree

theorem agree_bind_of_eq {x y : Except ε α} {f : α → Except ε γ} {g : α → Except ε δ} (h : x = y)
    (hfg : ∀ a, Agree S (f a) (g a)) : Agree S (x >>= f) (y >>= g) := by
  subst h
  cases x with
  | ok a => exact hfg a
  | error e => exact .error e

section Lists

variable {xs : List α} {ys : List β}

theorem agree_mapM {f : α → Except ε γ} {g : β → Except ε δ} (h : List.Forall₂ R xs ys)
    (hfg : ∀ a b, R a b → Agree S (f a) (g b)) :
    Agree (List.Forall₂ S) (xs.mapM f) (ys.mapM g) := by
  induction h with
  | nil => exact .ok .nil
  | cons hab _ ih =>
      rw [List.mapM_cons, List.mapM_cons]
      exact (hfg _ _ hab).bind fun c d hcd => ih.bind fun cs ds hcds => .ok (.cons hcd hcds)

theorem mapM_eq {f : α → Except ε γ} {g : β → Except ε γ} (h : List.Forall₂ R xs ys)
    (hfg : ∀ a b, R a b → f a = g b) : xs.mapM f = ys.mapM g := by
  induction h with
  | nil => rfl
  | cons hab _ ih => rw [List.mapM_cons, List.mapM_cons, hfg _ _ hab, ih]

theorem anyM_eq {f : α → Except ε Bool} {g : β → Except ε Bool} (h : List.Forall₂ R xs ys)
    (hfg : ∀ a b, R a b → f a = g b) : xs.anyM f = ys.anyM g := by
  induction h with
  | nil => rfl
  | cons hab _ ih => rw [List.anyM, List.anyM, hfg _ _ hab, ih]

theorem allM_eq {f : α → Except ε Bool} {g : β → Except ε Bool} (h : List.Forall₂ R xs ys)
    (hfg : ∀ a b, R a b → f a = g b) : xs.allM f = ys.allM g := by
  induction h with
  | nil => rfl
  | cons hab _ ih => rw [List.allM, List.allM, hfg _ _ hab, ih]

theorem agree_findM {f : α → Except ε Bool} {g : β → Except ε Bool} (h : List.Forall₂ R xs ys)
    (hfg : ∀ a b, R a b → f a = g b) :
    Agree (Option.Rel R) (xs.findM? f) (ys.findM? g) := by
  induction h with
  | nil => exact .ok .none
  | @cons a b xs ys hab _ ih =>
      rw [List.findM?, List.findM?, hfg _ _ hab]
      refine agree_bind_of_eq rfl fun found => ?_
      cases found with
      | true => exact .ok (.some hab)
      | false => exact ih

theorem agree_foldlM {f : γ → α → Except ε γ} {g : δ → β → Except ε δ} {c : γ} {d : δ}
    (h : List.Forall₂ R xs ys) (hcd : S c d)
    (hfg : ∀ c d a b, S c d → R a b → Agree S (f c a) (g d b)) :
    Agree S (xs.foldlM f c) (ys.foldlM g d) := by
  induction h generalizing c d with
  | nil => exact .ok hcd
  | cons hab _ ih =>
      rw [List.foldlM_cons, List.foldlM_cons]
      exact (hfg _ _ _ _ hcd hab).bind fun c d hcd => ih hcd

end Lists

theorem mapM_option_eq {x : Option α} {y : Option β} {f : α → Except ε γ} {g : β → Except ε γ}
    (h : Option.Rel R x y) (hfg : ∀ a b, R a b → f a = g b) : x.mapM f = y.mapM g := by
  cases h with
  | none => rfl
  | some hab => exact congrArg (some <$> ·) (hfg _ _ hab)

end Result

end Mockup
