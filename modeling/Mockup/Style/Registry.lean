import Mockup.Style
import Mockup.Digest
import Mockup.Value.Writer
import Mockup.Naming.Fresh

namespace Mockup.Style

def digest (style : Style) : String := Digest.sha1 (Value.object style).canonicalText

structure Registry where
  styles : List (String × Style) := []
  nameByDigest : List (String × String) := []

namespace Registry

def has (r : Registry) (name : String) : Bool := Fields.has r.styles name

def size (r : Registry) : Nat := r.styles.length

def numbered (name : String) (i : Nat) : String :=
  if i = 0 then name else name ++ "_" ++ String.ofList (Number.numeral (i + 1))

def freeName (r : Registry) (preferred : String) : String :=
  Naming.firstFree (numbered preferred) (fun name => !r.has name) r.size

/-- The name under which a style is stored, and the registry with it. A style that is there keeps
its name, and a new one takes the preferred name or the first free number after it. -/
def register (r : Registry) (preferred : String) (style : Style) : String × Registry :=
  match Fields.get? (digest style) r.nameByDigest with
  | some name => (name, r)
  | none =>
    let name := r.freeName preferred
    (name, ⟨r.styles ++ [(name, style)], r.nameByDigest ++ [(digest style, name)]⟩)

end Registry

end Mockup.Style
