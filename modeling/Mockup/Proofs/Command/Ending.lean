import Mockup.Proofs.Command.Debouncing
import Mockup.Proofs.Command.Saving
import Mockup.Proofs.Screen.Totality
import Mockup.Proofs.Screen.Writing

namespace Mockup

open Result

namespace Settings

/-- No path holds the character of number zero. -/
def isPathText : Value → Bool
  | .text t => !t.toList.contains '\x00'
  | _ => false

def isWidth : Value → Bool
  | .number (.int n) => decide (n < 2 ^ 63)
  | _ => false

def Topic.admits (t : Topic) (name : String) (v : Value) : Bool :=
  t.entryNames.contains name &&
    match t with
    | .figma => isText v
    | .normalize => if name = "unwrapGroups" then isTruth v else isTextList v
    | .detection => isTruth v
    | .output => if name = "dir" then isPathText v else isWidth v

variable {s : Settings} {t : Topic} {name : String} {v : Value}

end Settings

namespace Element

end Element

namespace Screen

variable {o : Options} {d : Document} {s : Screen}

end Screen

def Layer.isBare (l : Layer) : Bool := l.toTraits.isBare && l.box.isNone

theorem Layer.bounded_of_isBare {l : Layer} (h : l.isBare = true) : l.Bounded := by
  obtain ⟨htraits, hbox⟩ := Bool.and_eq_true_iff.mp h
  exact ⟨Traits.bounded_of_isBare htraits, by simp [Option.isNone_iff_eq_none.mp hbox]⟩

namespace Files

variable {f f' : Files} {p q : Place} {path : Path} {name content : String}

end Files

namespace Command

variable {σ τ : Session} {s : Settings} {d : Document} {o : Origin} {config input : String}

def settled (settings : String) : Session :=
  { files := ⟨[((Path.ofText "screen-ir.config.json").place, some settings),
    ((Path.ofText "t.json").place, some (layerText "Home"))]⟩ }

end Command

end Mockup
