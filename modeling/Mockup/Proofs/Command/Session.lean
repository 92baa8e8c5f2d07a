import Mockup.Command
import Mockup.Proofs.Result

namespace Mockup

namespace Files

theorem get?_erase_of_ne {p q : Place} (h : q ≠ p) (f : Files) : (f.erase p).get? q = f.get? q := by
  have hfind (e : Place × Option String) : (e.1 != p && decide (e.1 = q)) = decide (e.1 = q) := by
    by_cases he : e.1 = q
    · simp [he, h]
    · simp [he]
  simp only [get?, erase, List.find?_filter]
  congr 2
  funext e
  simpa using hfind e

theorem get?_put_self (f : Files) (p : Place) (content : Option String) :
    (f.put p content).get? p = some content := by
  have hnone : (f.erase p).entries.find? (fun e => e.1 = p) = none := by
    simp [erase]
  simp [get?, put, List.find?_append, hnone]

theorem get?_put_of_ne {p q : Place} (h : q ≠ p) (f : Files) (content : Option String) :
    (f.put p content).get? q = f.get? q := by
  rw [← get?_erase_of_ne h f]
  simp [get?, put, List.find?_append, Ne.symm h]

/-- Written files are there, and nothing else changes. -/
theorem write_eq_ok {f f' : Files} {directory : Path} {name content : String}
    (h : f.write directory name content = .ok f') :
    f' = f.put (directory.child name).place (some content) := by
  obtain ⟨_, -, h⟩ := Result.bind_eq_ok_iff.mp h
  simp only at h
  split at h
  · cases h
  · exact (Except.ok.inj h).symm

end Files

namespace Watch

variable {w v : Watch} {e : FileEvent} {counts : Bool}

end Watch

namespace Command

variable {α β ε : Type} {σ τ : Session}

theorem run_bind_eq_ok_iff {x : Action α} {f : α → Action β} {r : β × Session} :
    (x >>= f).run σ = .ok r ↔ ∃ a τ, x.run σ = .ok (a, τ) ∧ (f a).run τ = .ok r := by
  rw [StateT.run_bind, Result.bind_eq_ok_iff]
  simp

theorem run_pure_eq_ok_iff {a b : α} :
    (pure a : Action α).run σ = .ok (b, τ) ↔ a = b ∧ σ = τ := by
  rw [StateT.run_pure, Result.pure_eq_ok_iff, Prod.mk.injEq]

theorem run_orCrash_eq_ok_iff {crash : ε → Crash} {r : Except ε α} {a : α} :
    (orCrash crash r).run σ = .ok (a, τ) ↔ r = .ok a ∧ σ = τ := by
  cases r with
  | ok b => rw [orCrash, run_pure_eq_ok_iff, Except.ok.injEq]
  | error e =>
      refine ⟨fun h => ?_, fun h => by cases h.1⟩
      cases h

theorem files_of_say {line : String} (h : (say line).run σ = .ok ((), τ)) : τ.files = σ.files := by
  cases h
  rfl

theorem files_of_sayAll {lines : List String} (h : (sayAll lines).run σ = .ok ((), τ)) :
    τ.files = σ.files := by
  induction lines generalizing σ with
  | nil =>
      cases h
      rfl
  | cons line lines ih =>
      obtain ⟨_, ρ, hline, hrest⟩ := run_bind_eq_ok_iff.mp h
      exact (ih hrest).trans (files_of_say hline)

end Command

end Mockup
