import Mockup.Proofs.Command.Counting
import Mockup.Proofs.Command.Watching

namespace Mockup

open Number Result

namespace Document

end Document

namespace Command

variable {α β : Type} {s : Settings} {o : Output} {σ τ : Session} {w v : Watch} {h : Happening}
  {file path : String} {output : Option String}

def goOn (s : Settings) (o : Output) (w : Watch) (hs : List Happening) : Action Nat := do
  let _ ← hs.foldlM (handle s o) w
  say "\n👋 Stopping watch..."
  return 0

def changed (hs : List Happening) (f : Files) : Files :=
  hs.foldl (fun f h => h.changes.foldl applyChange f) f

end Command

end Mockup
