import Mathlib.Data.List.Induction
import Mathlib.Tactic.Linarith
import Mockup.Proofs.Command.Session
import Mockup.Proofs.Number.Difference

namespace Mockup

open Number Result

namespace Watch

def count (s : Watch × List FileEvent) (e : FileEvent) : Number.Result (Watch × List FileEvent) :=
  (s.1.observe e).map fun x => (x.1, if x.2 then s.2 ++ [e] else s.2)

def run (w : Watch) (es : List FileEvent) : Number.Result (Watch × List FileEvent) :=
  es.foldlM count (w, [])

def lastTime (counted : List FileEvent) : Number :=
  (counted.getLast?.map fun e => e.time).getD (.real (.ofInt 0))

def after (w : Watch) (counted : List FileEvent) : Watch := { w with last := lastTime counted }

end Watch

namespace Watch

variable {w v : Watch} {es counted : List FileEvent} {e : FileEvent}

section Exact

variable {d : ℚ} (hd : w.debounce.value? = some d)

include hd

end Exact

end Watch

end Mockup
