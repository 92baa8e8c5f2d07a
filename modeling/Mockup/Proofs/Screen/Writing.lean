import Mockup.Proofs.Screen.Distinct
import Mockup.Proofs.Screen.Totality
import Mockup.Proofs.Value.Spacing

namespace Mockup

open Value

namespace SafeArea

end SafeArea

namespace Screen

variable {o o' : Options} {d d' : Document} {s s' : Screen} {i i' : Indent} {v v' : Value}

end Screen

end Mockup
