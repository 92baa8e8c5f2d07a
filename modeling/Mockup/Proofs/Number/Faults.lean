import Mockup.Number
import Mockup.Proofs.Result

namespace Mockup.Number

open Mockup.Result

theorem toReal_blames (a : Number) : Blames (· = .tooLarge) a.toReal := by
  cases a with
  | real x => exact blames_ok x
  | int i =>
      rw [toReal]
      by_cases hfinite : (Binary64.ofInt i).isFinite
      · rw [if_pos hfinite]
        exact blames_ok _
      · rw [if_neg hfinite]
        exact fun _ h => (Except.error.inj h).symm

theorem onReals_blames (f : Binary64 → Binary64 → Binary64) (a b : Number) :
    Blames (· = .tooLarge) (onReals f a b) :=
  (toReal_blames a).bind fun _ => (toReal_blames b).bind fun _ => blames_ok _

theorem add_blames (a b : Number) : Blames (· = .tooLarge) (a.add b) := by
  rw [add.eq_def]
  split
  · exact blames_ok _
  · exact onReals_blames _ _ _

theorem sub_blames (a b : Number) : Blames (· = .tooLarge) (a.sub b) := by
  rw [sub.eq_def]
  split
  · exact blames_ok _
  · exact onReals_blames _ _ _

theorem mul_blames (a b : Number) : Blames (· = .tooLarge) (a.mul b) := by
  rw [mul.eq_def]
  split
  · exact blames_ok _
  · exact onReals_blames _ _ _

theorem div_blames {a b : Number} (hzero : b.isZero = false) : Blames (· = .tooLarge) (a.div b) := by
  rw [div.eq_def, if_neg (by rw [hzero]; exact Bool.false_ne_true)]
  split
  · dsimp only
    split
    · exact blames_ok _
    · exact fun _ h => (Except.error.inj h).symm
  · exact onReals_blames _ _ _

theorem onReals_comm {f : Binary64 → Binary64 → Binary64} (hf : ∀ x y, f x y = f y x)
    (a b : Number) : onReals f a b = onReals f b a := by
  have h := bind_comm_of_blames (toReal_blames a) (toReal_blames b)
    fun x y => pure (real (f x y))
  rw [onReals, h, onReals]
  simp only [hf]

theorem Binary64.mul_comm (x y : Binary64) : x.mul y = y.mul x := by
  have hsign (s t : Bool) : (s != t) = (t != s) := by cases s <;> cases t <;> rfl
  cases x <;> cases y <;> simp only [mul, hsign, Nat.mul_comm]

theorem mul_comm (a b : Number) : a.mul b = b.mul a := by
  have hreals := onReals_comm Binary64.mul_comm a b
  cases a <;> cases b
  · rw [mul, mul, Int.mul_comm]
  all_goals exact hreals

/-- A product of two results, in either order. -/
theorem bind_mul_comm {x y : Number.Result Number} (hx : Blames (· = .tooLarge) x)
    (hy : Blames (· = .tooLarge) y) :
    (x >>= fun a => y >>= fun b => a.mul b) = y >>= fun b => x >>= fun a => b.mul a := by
  rw [bind_comm_of_blames hx hy]
  exact bind_congr fun b => bind_congr fun a => Number.mul_comm a b

/-- A test of the difference of two numbers. -/
theorem difference_decides (test : Number → Bool) (a b : Number.Result Number) :
    Decides (∃ x y d, a = .ok x ∧ b = .ok y ∧ x.sub y = .ok d ∧ test d = true)
      (do return test (← (← a).sub (← b))) := by
  intro answer h
  obtain ⟨x, hx, h⟩ := bind_eq_ok_iff.mp h
  obtain ⟨y, hy, h⟩ := bind_eq_ok_iff.mp h
  obtain ⟨d, hd, h⟩ := bind_eq_ok_iff.mp h
  cases h
  constructor
  · exact fun htest => ⟨x, y, d, hx, hy, hd, htest⟩
  · rintro ⟨x', y', d', hx', hy', hd', htest⟩
    cases hx.symm.trans hx'
    cases hy.symm.trans hy'
    cases hd.symm.trans hd'
    exact htest

theorem known_eq_ok_iff {n : Option Number} {a : Number} :
    Number.known n = .ok a ↔ n = some a := by
  cases n <;> simp [Number.known]

theorem known_decides {P : Number → Prop} {test : Number → Bool} (htest : ∀ n, test n = true ↔ P n)
    (n : Option Number) :
    Decides (∃ a, n = some a ∧ P a) (do return test (← Number.known n)) := by
  cases n with
  | none => exact decides_error _
  | some n => exact decides_ok (by simp [htest])

end Mockup.Number
