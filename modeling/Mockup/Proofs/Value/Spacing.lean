import Mockup.Proofs.Agreement
import Mockup.Proofs.Value.Sorting

namespace Mockup.Value

mutual

def lexemesOf : Value → List (List Char)
  | .null => ["null".toList]
  | .bool b => [if b then "true".toList else "false".toList]
  | .number n => [n.text realStyle]
  | .text s => [quoted s]
  | .list [] => [['['], [']']]
  | .list (v :: rest) => ['['] :: lexemesOf v ++ lexemesOfItems rest ++ [[']']]
  | .object [] => [['{'], ['}']]
  | .object ((name, v) :: rest) =>
    ['{'] :: quoted name :: [':'] :: lexemesOf v ++ lexemesOfFields rest ++ [['}']]

def lexemesOfItems : List Value → List (List Char)
  | [] => []
  | v :: rest => [','] :: lexemesOf v ++ lexemesOfItems rest

def lexemesOfFields : Fields → List (List Char)
  | [] => []
  | (name, v) :: rest => [','] :: quoted name :: [':'] :: lexemesOf v ++ lexemesOfFields rest

end

def IsLexeme (l : List Char) : Prop :=
  ∃ c cs t, l = c :: cs ∧ isBlankChar c = false ∧ nextToken? c cs = some (t, [])

inductive Spaced : List (List Char) → List Char → Prop
  | nil : Spaced [] []
  | blank {c : Char} {ls : List (List Char)} {cs : List Char} (hc : isBlankChar c = true)
      (h : Spaced ls cs) : Spaced ls (c :: cs)
  | lexeme (l : List Char) {ls : List (List Char)} {cs : List Char} (h : Spaced ls cs) :
      Spaced (l :: ls) (l ++ cs)

theorem Spaced.blanks {bs cs : List Char} {ls : List (List Char)}
    (hbs : ∀ c ∈ bs, isBlankChar c = true) (h : Spaced ls cs) : Spaced ls (bs ++ cs) := by
  induction bs with
  | nil => exact h
  | cons b bs ih =>
      obtain ⟨hb, hbs⟩ := List.forall_mem_cons.mp hbs
      exact .blank hb (ih hbs)

theorem Spaced.mark (c : Char) {cs : List Char} {ls : List (List Char)} (h : Spaced ls cs) :
    Spaced ([c] :: ls) (c :: cs) := .lexeme [c] h

theorem IsLexeme.mark {c : Char} {t : Token} (hc : isBlankChar c = false)
    (ht : markToken? c = some t) : IsLexeme [c] :=
  ⟨c, [], t, rfl, hc, by rw [nextToken?, ht]⟩

section Written

variable {f : Format} (hf : f.IsPlain) (level : Nat) {rest : List Char} {ls : List (List Char)}
  (h : Spaced ls rest)

include hf h

omit h

end Written

/-- The same value but for the order of the fields in its objects. -/
inductive Reordered : Value → Value → Prop
  | null : Reordered .null .null
  | bool (b : Bool) : Reordered (.bool b) (.bool b)
  | number (n : Number) : Reordered (.number n) (.number n)
  | text (s : String) : Reordered (.text s) (.text s)
  | list {as bs : List Value} (h : List.Forall₂ Reordered as bs) : Reordered (.list as) (.list bs)
  | object {as bs : Fields} (hnames : (Fields.names as).Perm (Fields.names bs))
      (h : ∀ name a b, (name, a) ∈ as → (name, b) ∈ bs → Reordered a b) :
      Reordered (.object as) (.object bs)

theorem Reordered.symm {a b : Value} (h : a.Reordered b) : b.Reordered a := by
  induction a generalizing b with
  | null | bool | number | text =>
      cases h
      constructor
  | list as ih =>
      cases h with
      | list h => exact .list (Related.imp_mem h fun a ha b hab => ih a ha hab).flip
  | object as ih =>
      cases h with
      | object hnames h =>
          exact .object hnames.symm fun name b a hb ha => ih _ ha (h name a b ha hb)

theorem Reordered.trans {a b c : Value} (hab : a.Reordered b) (hbc : b.Reordered c) :
    a.Reordered c := by
  induction a generalizing b c with
  | null | bool | number | text =>
      cases hab
      exact hbc
  | list as ih =>
      cases hab with
      | list hab =>
          cases hbc with
          | list hbc =>
              exact .list (Related.comp_mem hab hbc fun a ha b c hab hbc => ih a ha hab hbc)
  | object as ih =>
      cases hab with
      | object hnames hab =>
          cases hbc with
          | object hnames' hbc =>
              refine .object (hnames.trans hnames') fun name a c ha hc => ?_
              have hmem := hnames.mem_iff.mp (List.mem_map_of_mem (f := Prod.fst) ha)
              obtain ⟨⟨name', b⟩, hb, heq⟩ := List.mem_map.mp hmem
              obtain rfl : name' = name := heq
              exact ih _ ha (hab _ _ _ ha hb) (hbc _ _ _ hb hc)

end Mockup.Value
