namespace Mockup.Naming

/-- The first of the candidates numbered from 0 to `bound` that is free. When the candidates are
distinct and at most `bound` of them are taken, there is one. -/
def firstFree (candidate : Nat → String) (isFree : String → Bool) (bound : Nat) : String :=
  (((List.range (bound + 1)).map candidate).find? isFree).getD (candidate (bound + 1))

end Mockup.Naming
