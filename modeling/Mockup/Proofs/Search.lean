import Mathlib.Data.List.Forall2
import Mockup.Proofs.Result

namespace Mockup

open Result

variable {ε α β γ : Type} {R : α → β → Prop} {N : α → Prop}

/-- What is found in a list whose members are gone through, and of which members there is nothing to
be found. -/
inductive Selects (R : α → β → Prop) (N : α → Prop) : List α → List β → Prop
  | nil : Selects R N [] []
  | take {a : α} {b : β} {as : List α} {bs : List β} (h : R a b) (hrest : Selects R N as bs) :
      Selects R N (a :: as) (b :: bs)
  | skip {a : α} {as : List α} {bs : List β} (h : N a) (hrest : Selects R N as bs) :
      Selects R N (a :: as) bs

namespace Selects

theorem of_forall {as : List α} (h : ∀ a ∈ as, N a) : Selects R N as [] := by
  induction as with
  | nil => exact .nil
  | cons a as ih =>
      obtain ⟨ha, has⟩ := List.forall_mem_cons.mp h
      exact .skip ha (ih has)

theorem append {as as' : List α} {bs bs' : List β} (h : Selects R N as bs)
    (h' : Selects R N as' bs') : Selects R N (as ++ as') (bs ++ bs') := by
  induction h with
  | nil => exact h'
  | take h _ ih => exact .take h ih
  | skip h _ ih => exact .skip h ih

/-- The first of what is found was found at some member, and at none before it. -/
theorem exists_split {as : List α} {b : β} {bs : List β} (h : Selects R N as (b :: bs)) :
    ∃ before a after, as = before ++ a :: after ∧ (∀ x ∈ before, N x) ∧ R a b := by
  generalize hbs : b :: bs = found at h
  induction h with
  | nil => cases hbs
  | take h _ _ =>
      cases hbs
      exact ⟨[], _, _, rfl, by simp, h⟩
  | skip ha _ ih =>
      obtain ⟨before, a, after, rfl, hbefore, h⟩ := ih hbs
      exact ⟨_ :: before, a, after, rfl, List.forall_mem_cons.mpr ⟨ha, hbefore⟩, h⟩

theorem exists_of_mem {as : List α} {bs : List β} (h : Selects R N as bs) {b : β} (hb : b ∈ bs) :
    ∃ a ∈ as, R a b := by
  induction h with
  | nil => cases hb
  | take h _ ih =>
      rcases List.mem_cons.mp hb with rfl | hb
      · exact ⟨_, List.mem_cons_self, h⟩
      · obtain ⟨a, ha, hab⟩ := ih hb
        exact ⟨a, List.mem_cons_of_mem _ ha, hab⟩
  | skip _ _ ih =>
      obtain ⟨a, ha, hab⟩ := ih hb
      exact ⟨a, List.mem_cons_of_mem _ ha, hab⟩

/-- The members of which there is something are told by a test. -/
theorem forall₂_filter {p : α → Prop} [DecidablePred p] {as : List α} {bs : List β}
    (h : Selects R N as bs) (hR : ∀ a b, R a b → p a) (hN : ∀ a, N a → ¬p a) :
    List.Forall₂ R (as.filter fun a => p a) bs := by
  induction h with
  | nil => exact .nil
  | take hab _ ih =>
      rw [List.filter_cons_of_pos (by simpa using hR _ _ hab)]
      exact .cons hab ih
  | skip ha _ ih =>
      rw [List.filter_cons_of_neg (by simpa using hN _ ha)]
      exact ih

end Selects

abbrev Collects (R : α → β → Prop) : List α → List β → Prop := Selects R fun a => ∀ b, ¬R a b

namespace Collects

theorem exists_mem {as : List α} {bs : List β} (h : Collects R as bs) {a : α} (ha : a ∈ as)
    {b : β} (hab : R a b) : ∃ b ∈ bs, R a b := by
  induction h with
  | nil => cases ha
  | take h _ ih =>
      rcases List.mem_cons.mp ha with rfl | ha
      · exact ⟨_, List.mem_cons_self, h⟩
      · obtain ⟨b, hb, hab⟩ := ih ha
        exact ⟨b, List.mem_cons_of_mem _ hb, hab⟩
  | skip h _ ih =>
      rcases List.mem_cons.mp ha with rfl | ha
      · exact (h b hab).elim
      · exact ih ha

theorem exists_collects (R : α → β → Prop) (as : List α) : ∃ bs, Collects R as bs := by
  induction as with
  | nil => exact ⟨[], .nil⟩
  | cons a as ih =>
      obtain ⟨bs, hbs⟩ := ih
      by_cases ha : ∃ b, R a b
      · obtain ⟨b, hb⟩ := ha
        exact ⟨b :: bs, .take hb hbs⟩
      · exact ⟨bs, .skip (not_exists.mp ha) hbs⟩

end Collects

def FindsFirst (R : α → β → Prop) (as : List α) (found : Option β) : Prop :=
  ∃ bs, Collects R as bs ∧ bs.head? = found

namespace FindsFirst

variable {as as' : List α} {a : α} {b : β} {found : Option β}

theorem nil : FindsFirst R [] none := ⟨[], .nil, rfl⟩

theorem here (h : R a b) : FindsFirst R (a :: as) (some b) := by
  obtain ⟨bs, hbs⟩ := Collects.exists_collects R as
  exact ⟨b :: bs, .take h hbs, rfl⟩

theorem later (h : ∀ b, ¬R a b) (hrest : FindsFirst R as found) :
    FindsFirst R (a :: as) found := by
  obtain ⟨bs, hbs, hfirst⟩ := hrest
  exact ⟨bs, .skip h hbs, hfirst⟩

theorem of_forall_not (h : ∀ a ∈ as, ∀ b, ¬R a b) : FindsFirst R as none := ⟨[], .of_forall h, rfl⟩

theorem forall_not (h : FindsFirst R as none) : ∀ a ∈ as, ∀ b, ¬R a b := by
  obtain ⟨bs, hbs, hfirst⟩ := h
  intro a ha b hab
  obtain ⟨c, hc, -⟩ := hbs.exists_mem ha hab
  rw [List.head?_eq_none_iff.mp hfirst] at hc
  cases hc

theorem append_none (h : FindsFirst R as none) (h' : FindsFirst R as' found) :
    FindsFirst R (as ++ as') found := by
  obtain ⟨bs, hbs, hfirst⟩ := h
  obtain ⟨bs', hbs', hfirst'⟩ := h'
  refine ⟨bs ++ bs', hbs.append hbs', ?_⟩
  rw [List.head?_append, hfirst, Option.none_or, hfirst']

theorem append_some (h : FindsFirst R as (some b)) : FindsFirst R (as ++ as') (some b) := by
  obtain ⟨bs, hbs, hfirst⟩ := h
  obtain ⟨bs', hbs'⟩ := Collects.exists_collects R as'
  refine ⟨bs ++ bs', hbs.append hbs', ?_⟩
  rw [List.head?_append, hfirst, Option.some_or]

theorem exists_split (h : FindsFirst R as (some b)) :
    ∃ before a after, as = before ++ a :: after ∧ (∀ x ∈ before, ∀ b, ¬R x b) ∧ R a b := by
  obtain ⟨bs, hbs, hfirst⟩ := h
  obtain ⟨rest, rfl⟩ := List.head?_eq_some_iff.mp hfirst
  exact hbs.exists_split

theorem exists_of_mem (ha : a ∈ as) (h : R a b) : ∃ found, FindsFirst R as (some found) := by
  obtain ⟨bs, hbs⟩ := Collects.exists_collects R as
  obtain ⟨c, hc, -⟩ := hbs.exists_mem ha h
  obtain ⟨first, rest, rfl⟩ := List.exists_cons_of_ne_nil (List.ne_nil_of_mem hc)
  exact ⟨first, first :: rest, hbs, rfl⟩

theorem isSome_iff (h : FindsFirst R as found) : found.isSome ↔ ∃ a ∈ as, ∃ b, R a b := by
  cases found with
  | none => simpa using h.forall_not
  | some b =>
      obtain ⟨before, a, after, rfl, -, hab⟩ := h.exists_split
      simpa using ⟨a, by simp, b, hab⟩

end FindsFirst

structure WalksAll (walk : γ → Except ε (List β)) (all : List γ → Except ε (List β)) : Prop where
  nil : all [] = .ok []
  cons : ∀ t ts, all (t :: ts) = do
    let found ← walk t
    return found ++ (← all ts)

namespace WalksAll

variable {walk : γ → Except ε (List β)} {all : List γ → Except ε (List β)} {ts : List γ}

theorem selects (hall : WalksAll walk all) {members : γ → List α}
    (h : ∀ t ∈ ts, ∀ bs, walk t = .ok bs → Selects R N (members t) bs) {bs : List β}
    (hbs : all ts = .ok bs) : Selects R N (ts.flatMap members) bs := by
  induction ts generalizing bs with
  | nil =>
      cases hall.nil.symm.trans hbs
      exact .nil
  | cons t ts ih =>
      obtain ⟨ht, hts⟩ := List.forall_mem_cons.mp h
      rw [hall.cons] at hbs
      obtain ⟨found, hfound, hbs⟩ := bind_eq_ok_iff.mp hbs
      obtain ⟨rest, hrest, hbs⟩ := bind_eq_ok_iff.mp hbs
      cases hbs
      exact (ht found hfound).append (ih hts hrest)

theorem blames (hall : WalksAll walk all) {F : ε → Prop} (h : ∀ t ∈ ts, Blames F (walk t)) :
    Blames F (all ts) := by
  induction ts with
  | nil =>
      rw [hall.nil]
      exact blames_ok _
  | cons t ts ih =>
      obtain ⟨ht, hts⟩ := List.forall_mem_cons.mp h
      rw [hall.cons]
      exact ht.bind fun _ => (ih hts).bind fun _ => blames_ok _

end WalksAll

/-- A search that finds something with a property, or nothing in a known case, unless it fails. -/
def Finds (P : β → Prop) (N : Prop) (x : Except ε (Option β)) : Prop :=
  ∀ found, x = .ok found → (∀ b, found = some b → P b) ∧ (found = none → N)

abbrev FindsAny (P : β → Prop) : Except ε (Option β) → Prop := Finds P (∀ b, ¬P b)

theorem finds_none {P : β → Prop} {n : Prop} (h : n) :
    Finds P n (pure none : Except ε (Option β)) := by
  rintro _ ⟨⟩
  exact ⟨nofun, fun _ => h⟩

end Mockup
