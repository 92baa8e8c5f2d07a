import Mockup.Proofs.Command.Session

namespace Mockup.Command

def lowered (s : Settings) (o : Output) (d : Document) : Except Crash (Place × String) := do
  let screen ← (do Screen.ofDocument (← s.options) d).mapError .lowering
  match o.directory, o.indent with
  | none, _ => .error (.misplacedEntry .output "dir")
  | some _, none => .error (.misplacedEntry .output "indent")
  | some directory, some indent =>
    let content ← (screen.write indent).mapError .lowering
    return (((Path.ofText directory).child (fileName screen)).place, content ++ "\n")

variable {s : Settings} {o : Output} {d : Document} {σ τ : Session}
  {r : Watch}

theorem state_of_countElements {screen : Screen} {n : Nat}
    (h : (countElements screen).run σ = .ok (n, τ)) : σ = τ := by
  rw [countElements] at h
  obtain ⟨_, ρ, hcrash, h⟩ := run_bind_eq_ok_iff.mp h
  exact (run_orCrash_eq_ok_iff.mp hcrash).2.trans (run_pure_eq_ok_iff.mp h).2

/-- When a document is saved without a crash, its file is opened and written, and no other one. -/
theorem files_eq_of_save (h : (save s o d).run σ = .ok ((), τ)) :
    ∃ p content, lowered s o d = .ok (p, content) ∧
      τ.files = (σ.files.put p (some "")).put p (some content) := by
  rw [save] at h
  obtain ⟨screen, ρ, hrun, h⟩ := run_bind_eq_ok_iff.mp h
  obtain ⟨hscreen, rfl⟩ := run_orCrash_eq_ok_iff.mp hrun
  cases hdirectory : o.directory with
  | none =>
      rw [hdirectory] at h
      cases h
  | some directory =>
      rw [hdirectory] at h
      obtain ⟨_, ρ, hget, h⟩ := run_bind_eq_ok_iff.mp h
      cases hget
      obtain ⟨files, ρ, hrun, h⟩ := run_bind_eq_ok_iff.mp h
      obtain ⟨hopened, rfl⟩ := run_orCrash_eq_ok_iff.mp hrun
      cases hindent : o.indent with
      | none =>
          rw [hindent] at h
          cases h
      | some indent =>
          rw [hindent] at h
          obtain ⟨content, ρ, hrun, h⟩ := run_bind_eq_ok_iff.mp h
          obtain ⟨hcontent, rfl⟩ := run_orCrash_eq_ok_iff.mp hrun
          obtain ⟨files', ρ, hrun, h⟩ := run_bind_eq_ok_iff.mp h
          obtain ⟨hwritten, rfl⟩ := run_orCrash_eq_ok_iff.mp hrun
          obtain ⟨_, ρ, hmodify, h⟩ := run_bind_eq_ok_iff.mp h
          cases hmodify
          obtain ⟨count, ρ, hcount, h⟩ := run_bind_eq_ok_iff.mp h
          obtain rfl := state_of_countElements hcount
          obtain ⟨_, ρ, hsummary, h⟩ := run_bind_eq_ok_iff.mp h
          have hfiles := (files_of_say h).trans (files_of_sayAll hsummary)
          refine ⟨((Path.ofText directory).child (fileName screen)).place, content ++ "\n", ?_, ?_⟩
          · rw [lowered, Result.bind_eq_ok_iff]
            refine ⟨screen, Result.mapError_eq_ok_iff.mpr hscreen, ?_⟩
            rw [hdirectory, hindent]
            exact Result.bind_eq_ok_iff.mpr ⟨content, Result.mapError_eq_ok_iff.mpr hcontent, rfl⟩
          · rw [hfiles, ← Files.write_eq_ok hopened]
            exact Files.write_eq_ok hwritten

def layerText (name : String) : String := "\x7b\"id\":\"1\",\"name\":\"" ++ name ++ "\"\x7d"

end Mockup.Command
