import Mockup.Proofs.Element.Tree
import Mockup.Proofs.Style.Registry
import Mockup.Style.Assignment

namespace Mockup

def Identity.unstyled (i : Identity) : Identity := { i with styleRef := "" }

def Leaf.unstyled : Leaf → Leaf
  | .icon i => .icon { i with reference := "" }
  | .button b => .button { b with
      iconRef := b.iconRef.map fun _ => ""
      textStyleRef := b.textStyleRef.map fun _ => ""
      iconStyleRef := b.iconStyleRef.map fun _ => "" }
  | c => c

def Element.unstyled (e : Element) : Element := e.relabel Identity.unstyled Leaf.unstyled

namespace Style

/-- What a style is taken from: the layer with an id, or the layout of a repeater. -/
inductive Source where
  | layer (id : LayerId)
  | layout (l : Layout)
  deriving DecidableEq

theorem registrable_eq_ok_iff {p : Placed} {s : Style} :
    registrable p = .ok s ↔ Style.of p = .ok s ∧ p.isSpelled = true := by
  rw [registrable, Result.bind_eq_ok_iff]
  constructor
  · rintro ⟨s', hs', h⟩
    split at h
    · next hspelled =>
        cases h
        exact ⟨Result.lift_eq_ok_iff.mp hs', hspelled⟩
    · cases h
  · rintro ⟨hs, hspelled⟩
    exact ⟨s, Result.lift_eq_ok_iff.mpr hs, if_pos hspelled⟩

def Source.style (t : Tree Placed) : Source → Mockup.Result Style
  | .layer id => ofId t id
  | .layout l => .ok (ofRepeater l)

structure Reference where
  name : String
  source : Source

def partReferences (ref : Option String) (id : LayerId) : List Reference :=
  (ref.map fun name => ⟨name, .layer id⟩).toList

def sideReferences (i : Identity) : Leaf → List Reference
  | .icon c => [⟨c.reference, .layer i.id⟩]
  | .button b => partReferences b.textStyleRef b.textId ++
      partReferences b.iconStyleRef b.iconId ++ partReferences b.iconRef b.iconId
  | _ => []

def references : Element → List Reference
  | .leaf i c => ⟨i.styleRef, .layer i.id⟩ :: sideReferences i c
  | .branch i (.repeater _) l _ => [⟨i.styleRef, .layout l⟩]
  | .branch i _ _ _ => [⟨i.styleRef, .layer i.id⟩]
  | .foreign i _ => [⟨i.styleRef, .layer i.id⟩]

def branchSource (i : Identity) (b : Branch) (l : Layout) : Source :=
  match b with
  | .repeater _ => .layout l
  | _ => .layer i.id

theorem references_branch (i : Identity) (b : Branch) (l : Layout) (es : List Element) :
    references (.branch i b l es) = [⟨i.styleRef, branchSource i b l⟩] := by
  cases b <;> rfl

theorem source_partReferences (ref : Option String) (id : LayerId) :
    (partReferences (ref.map fun _ => "") id).map Reference.source =
      (partReferences ref id).map Reference.source := by
  cases ref <;> rfl

/-- The sources of an element's styles do not depend on how the styles are named. -/
theorem sources_unstyled (e : Element) :
    (references e.unstyled).map Reference.source = (references e).map Reference.source := by
  cases e with
  | foreign i v => rfl
  | branch i r l es => cases r <;> rfl
  | leaf i c =>
      cases c with
      | text c => rfl
      | image c => rfl
      | icon c => rfl
      | button b =>
          change Source.layer i.id :: List.map _ (_ ++ _ ++ _) =
            Source.layer i.id :: List.map _ (_ ++ _ ++ _)
          simp only [List.map_append]
          rw [source_partReferences, source_partReferences, source_partReferences]

theorem sources_of_unstyled_eq {e e' : Element} (h : e'.unstyled = e.unstyled) :
    (references e').map Reference.source = (references e).map Reference.source := by
  rw [← sources_unstyled, h, sources_unstyled]

/-- What a stretch of registrations does, whose styles are among some that do not collide: the
registry only grows, by entries that the new references name, and these stand for the styles of
their sources. -/
structure Assigns (t : Tree Placed) (met : List Style) (r r' : Registry)
    (refs : List Reference) : Prop where
  sound : r'.Sound
  stored : r'.styles.map Prod.snd ⊆ met
  kept : r.styles <+: r'.styles
  named : ∀ ref ∈ refs, ∃ s, ref.source.style t = .ok s ∧ r'.Names ref.name s
  added : ∀ name ∈ Fields.names r'.styles,
    name ∈ Fields.names r.styles ∨ ∃ ref ∈ refs, ref.name = name

variable {t : Tree Placed} {met : List Style} {r r₁ r₂ : Registry} {refs refs' : List Reference}

theorem Registry.Names.mono {r r' : Registry} (hkept : r.styles <+: r'.styles) {name : String}
    {s : Style} (h : r.Names name s) : r'.Names name s := by
  obtain ⟨stored, hstored, hc⟩ := h
  exact ⟨stored, Fields.get?_of_prefix hkept hstored, hc⟩

namespace Assigns

theorem refl (hr : r.Sound) (hstored : r.styles.map Prod.snd ⊆ met) : Assigns t met r r [] where
  sound := hr
  stored := hstored
  kept := List.prefix_rfl
  named := fun _ href => absurd href List.not_mem_nil
  added := fun _ hname => .inl hname

theorem trans (h : Assigns t met r r₁ refs) (h' : Assigns t met r₁ r₂ refs') :
    Assigns t met r r₂ (refs ++ refs') where
  sound := h'.sound
  stored := h'.stored
  kept := h.kept.trans h'.kept
  named := by
    intro ref href
    rcases List.mem_append.mp href with href | href
    · obtain ⟨s, hs, hnames⟩ := h.named ref href
      exact ⟨s, hs, hnames.mono h'.kept⟩
    · exact h'.named ref href
  added := by
    intro name hname
    rcases h'.added name hname with hname | ⟨ref, href, rfl⟩
    · rcases h.added name hname with hname | ⟨ref, href, rfl⟩
      · exact .inl hname
      · exact .inr ⟨ref, List.mem_append_left _ href, rfl⟩
    · exact .inr ⟨ref, List.mem_append_right _ href, rfl⟩

theorem of_mem_iff (h : Assigns t met r r₁ refs) (hiff : ∀ ref, ref ∈ refs' ↔ ref ∈ refs) :
    Assigns t met r r₁ refs' where
  sound := h.sound
  stored := h.stored
  kept := h.kept
  named := fun ref href => h.named ref ((hiff ref).mp href)
  added := by
    intro name hname
    rcases h.added name hname with hname | ⟨ref, href, rfl⟩
    · exact .inl hname
    · exact .inr ⟨ref, (hiff ref).mpr href, rfl⟩

theorem register (hfree : CollisionFree met) (hr : r.Sound)
    (hstored : r.styles.map Prod.snd ⊆ met) (source : Source) {s : Style}
    (hs : source.style t = .ok s) (hmet : s ∈ met) (preferred : String) :
    Assigns t met r (r.register preferred s).2 [⟨(r.register preferred s).1, source⟩] := by
  have h := Registry.register_spec hr preferred
    (hfree.mono (List.cons_subset.mpr ⟨hmet, hstored⟩))
  have hcases : (r.register preferred s).2.styles = r.styles ∨
      (r.register preferred s).2.styles = r.styles ++ [((r.register preferred s).1, s)] := by
    by_cases hknown : ∃ e ∈ r.styles, content e.2 = content s
    · obtain ⟨e, he, hc⟩ := hknown
      exact .inl (congrArg Registry.styles (h.known e he hc).2)
    · push Not at hknown
      exact .inr (h.added hknown).2
  refine ⟨hr.register preferred s, ?_, h.kept, ?_, ?_⟩
  · rcases hcases with heq | heq
    · rw [heq]
      exact hstored
    · rw [heq, List.map_append]
      exact List.append_subset.mpr ⟨hstored, List.cons_subset.mpr ⟨hmet, List.nil_subset _⟩⟩
  · intro ref href
    rw [List.mem_singleton.mp href]
    exact ⟨s, hs, h.stored⟩
  · intro name hname
    rcases hcases with heq | heq
    · rw [heq] at hname
      exact .inl hname
    · rw [heq, Fields.names, List.map_append, List.mem_append] at hname
      rcases hname with hname | hname
      · exact .inl hname
      · exact .inr ⟨_, List.mem_singleton_self _, (List.mem_singleton.mp hname).symm⟩

end Assigns

theorem assign_leaf_eq_ok {i : Identity} {c : Leaf} {e' : Element}
    (h : assign t r (.leaf i c) = .ok (e', r₁)) :
    ∃ s c', (Source.layer i.id).style t = .ok s ∧
      assignLeaf t (r.register i.styleRef s).2 (r.register i.styleRef s).1 c = .ok (c', r₁) ∧
      e' = .leaf { i with styleRef := (r.register i.styleRef s).1 } c' := by
  obtain ⟨s, hs, h⟩ := Result.bind_eq_ok_iff.mp h
  obtain ⟨⟨c', r₂⟩, hc, h⟩ := Result.bind_eq_ok_iff.mp h
  cases h
  exact ⟨s, c', hs, hc, rfl⟩

/-- All branches are assigned their styles in one way, wherever these are taken from. -/
theorem assign_branch (t : Tree Placed) (r : Registry) (i : Identity) (b : Branch) (l : Layout)
    (es : List Element) : assign t r (.branch i b l es) = (do
      let s ← (branchSource i b l).style t
      let (es', r') ← assignAll t (r.register i.styleRef s).2 es
      return (.branch { i with styleRef := (r.register i.styleRef s).1 } b l es', r')) := by
  cases b <;> rfl

theorem assign_branch_eq_ok {i : Identity} {b : Branch} {l : Layout} {es : List Element}
    {e' : Element} (h : assign t r (.branch i b l es) = .ok (e', r₁)) :
    ∃ s es', (branchSource i b l).style t = .ok s ∧
      assignAll t (r.register i.styleRef s).2 es = .ok (es', r₁) ∧
      e' = .branch { i with styleRef := (r.register i.styleRef s).1 } b l es' := by
  rw [assign_branch] at h
  obtain ⟨s, hs, h⟩ := Result.bind_eq_ok_iff.mp h
  obtain ⟨⟨es', r₂⟩, hes, h⟩ := Result.bind_eq_ok_iff.mp h
  cases h
  exact ⟨s, es', hs, hes, rfl⟩

theorem assignAll_cons_eq_ok {e : Element} {es es' : List Element}
    (h : assignAll t r (e :: es) = .ok (es', r₁)) :
    ∃ e' es'' r', assign t r e = .ok (e', r') ∧ assignAll t r' es = .ok (es'', r₁) ∧
      es' = e' :: es'' := by
  rw [assignAll] at h
  obtain ⟨⟨e', r'⟩, he, h⟩ := Result.bind_eq_ok_iff.mp h
  obtain ⟨⟨es'', r₂⟩, hes, h⟩ := Result.bind_eq_ok_iff.mp h
  cases h
  exact ⟨e', es'', r', he, hes, rfl⟩

def Registry.LeadsTo (r r' : Registry) : Prop := ∃ calls, r' = r.registerAll calls

theorem Registry.LeadsTo.sound (h : r.LeadsTo r₁) (hr : r.Sound) : r₁.Sound := by
  obtain ⟨calls, rfl⟩ := h
  exact hr.registerAll calls

def Registry.LeadsToIn (t : Tree Placed) (r r' : Registry) : Prop :=
  ∃ calls, r' = r.registerAll calls ∧ ∀ call ∈ calls, ∃ source : Source, source.style t = .ok call.2

namespace Registry.LeadsToIn

theorem leadsTo (h : r.LeadsToIn t r₁) : r.LeadsTo r₁ := by
  obtain ⟨calls, hcalls, -⟩ := h
  exact ⟨calls, hcalls⟩

theorem refl (t : Tree Placed) (r : Registry) : r.LeadsToIn t r := ⟨[], rfl, by simp⟩

theorem trans (h : r.LeadsToIn t r₁) (h' : r₁.LeadsToIn t r₂) : r.LeadsToIn t r₂ := by
  obtain ⟨calls, rfl, hcalls⟩ := h
  obtain ⟨calls', rfl, hcalls'⟩ := h'
  exact ⟨calls ++ calls', by rw [registerAll, registerAll, registerAll, List.foldl_append],
    List.forall_mem_append.mpr ⟨hcalls, hcalls'⟩⟩

theorem register (r : Registry) (preferred : String) {source : Source} {s : Style}
    (hs : source.style t = .ok s) : r.LeadsToIn t (r.register preferred s).2 :=
  ⟨[(preferred, s)], rfl, List.forall_mem_singleton.mpr ⟨source, hs⟩⟩

end Registry.LeadsToIn

theorem assignPart_leadsToIn {ref ref' : Option String} {id : LayerId}
    (h : assignPart t r ref id = .ok (ref', r₁)) : r.LeadsToIn t r₁ := by
  rw [assignPart.eq_def] at h
  split at h
  · next name id' =>
      split at h
      · cases h
        exact .refl t r
      · obtain ⟨s, hs, h⟩ := Result.bind_eq_ok_iff.mp h
        cases h
        have hsource : (Source.layer (some id')).style t = .ok s := hs
        exact .register r name hsource
  · cases h
    exact .refl t r

theorem assignPart_leadsTo {ref ref' : Option String} {id : LayerId}
    (h : assignPart t r ref id = .ok (ref', r₁)) : r.LeadsTo r₁ :=
  (assignPart_leadsToIn h).leadsTo

theorem assignLeaf_leadsToIn {styleRef : String} {c c' : Leaf}
    (h : assignLeaf t r styleRef c = .ok (c', r₁)) : r.LeadsToIn t r₁ := by
  cases c with
  | text c | image c | icon c =>
      cases h
      exact .refl t r
  | button b =>
      obtain ⟨⟨b', r₂⟩, hb, h⟩ := Result.bind_eq_ok_iff.mp h
      cases h
      obtain ⟨⟨textRef, r₃⟩, htext, hb⟩ := Result.bind_eq_ok_iff.mp hb
      obtain ⟨⟨iconRef, r₄⟩, hicon, hb⟩ := Result.bind_eq_ok_iff.mp hb
      cases hb
      exact (assignPart_leadsToIn htext).trans (assignPart_leadsToIn hicon)

theorem assignLeaf_leadsTo {styleRef : String} {c c' : Leaf}
    (h : assignLeaf t r styleRef c = .ok (c', r₁)) : r.LeadsTo r₁ :=
  (assignLeaf_leadsToIn h).leadsTo

theorem assignAll_leadsToIn {es : List Element}
    (ih : ∀ e ∈ es, ∀ {r r₁ e'}, assign t r e = .ok (e', r₁) → r.LeadsToIn t r₁)
    {es' : List Element} (h : assignAll t r es = .ok (es', r₁)) : r.LeadsToIn t r₁ := by
  induction es generalizing r es' with
  | nil =>
      cases h
      exact .refl t _
  | cons e es ihl =>
      obtain ⟨e', es'', r', he, hes, rfl⟩ := assignAll_cons_eq_ok h
      exact (ih e List.mem_cons_self he).trans
        (ihl (fun e he => ih e (List.mem_cons_of_mem _ he)) hes)

theorem assign_leadsToIn {e : Element} :
    ∀ {r r₁ e'}, assign t r e = .ok (e', r₁) → r.LeadsToIn t r₁ := by
  induction e with
  | leaf i c =>
      intro r r₁ e' h
      obtain ⟨s, c', hs, hc, -⟩ := assign_leaf_eq_ok h
      exact (Registry.LeadsToIn.register r i.styleRef hs).trans (assignLeaf_leadsToIn hc)
  | foreign i v =>
      intro r r₁ e' h
      rw [assign] at h
      cases h
  | branch i b l es ih =>
      intro r r₁ e' h
      obtain ⟨s, es', hs, hes, -⟩ := assign_branch_eq_ok h
      exact (Registry.LeadsToIn.register r i.styleRef hs).trans (assignAll_leadsToIn ih hes)

theorem assign_leadsTo {e : Element} {e' : Element} (h : assign t r e = .ok (e', r₁)) :
    r.LeadsTo r₁ :=
  (assign_leadsToIn h).leadsTo

theorem assignAll_leadsTo {es es' : List Element} (h : assignAll t r es = .ok (es', r₁)) :
    r.LeadsTo r₁ :=
  (assignAll_leadsToIn (fun _ _ {_ _ _} he => assign_leadsToIn he) h).leadsTo

/-- The registries that runs lead to, each of which ends with a bundle. -/
inductive Reached : Registry → Prop
  | fresh : Reached {}
  | run {t : Tree Placed} {r r' : Registry} {e e' : Element} {b : StyleBundle} (hr : Reached r)
      (ha : assign t r e = .ok (e', r')) (hb : r'.bundle t = .ok b) : Reached r'

theorem Reached.sound {r : Registry} (h : Reached r) : r.Sound := by
  induction h with
  | fresh => exact Registry.sound_empty
  | run _ ha _ ih => exact (assign_leadsTo ha).sound ih

end Style

end Mockup
