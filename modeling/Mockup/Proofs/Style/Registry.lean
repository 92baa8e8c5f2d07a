import Mathlib.Data.Finset.Card
import Mathlib.Data.Finset.Dedup
import Mockup.Proofs.List
import Mockup.Proofs.Naming.Fresh
import Mockup.Proofs.Value.Fields
import Mockup.Style.Registry

namespace Mockup.Style

def content (style : Style) : String := (Value.object style).canonicalText

/-- Among some styles, those with one digest have one content. -/
def CollisionFree (styles : List Style) : Prop :=
  ∀ s ∈ styles, ∀ t ∈ styles, digest s = digest t → content s = content t

theorem CollisionFree.mono {styles more : List Style} (h : CollisionFree more)
    (hsub : styles ⊆ more) : CollisionFree styles :=
  fun s hs t ht => h s (hsub hs) t (hsub ht)

theorem digest_eq (style : Style) : digest style = Digest.sha1 (content style) := rfl

namespace Registry

/-- The index has the digest of each stored style with its name, and no name, content or digest
twice. -/
structure Sound (r : Registry) : Prop where
  names : (Fields.names r.styles).Nodup
  contents : (r.styles.map fun e => content e.2).Nodup
  digests : (r.styles.map fun e => digest e.2).Nodup
  index : r.nameByDigest = r.styles.map fun e => (digest e.2, e.1)

def Names (r : Registry) (name : String) (style : Style) : Prop :=
  ∃ stored, Fields.get? name r.styles = some stored ∧ content stored = content style

def suffixed (preferred : String) (k : Nat) : String :=
  preferred ++ "_" ++ String.ofList (Number.numeral k)

/-- A name is the preferred one if that is free, and otherwise has the least free number from 2. -/
def IsFirstFree (r : Registry) (preferred name : String) : Prop :=
  (r.has preferred = false ∧ name = preferred) ∨
    (r.has preferred = true ∧ ∃ k ≥ 2, name = suffixed preferred k ∧ r.has name = false ∧
      ∀ j ≥ 2, j < k → r.has (suffixed preferred j) = true)

/-- What a call may do: the name it gives stands for the style, a content that is there changes
nothing, and any other comes last under the first free name. -/
structure Registers (r : Registry) (preferred : String) (style : Style) (name : String)
    (r' : Registry) : Prop where
  stored : r'.Names name style
  kept : r.styles <+: r'.styles
  known : ∀ e ∈ r.styles, content e.2 = content style → name = e.1 ∧ r' = r
  added : (∀ e ∈ r.styles, content e.2 ≠ content style) →
    r.IsFirstFree preferred name ∧ r'.styles = r.styles ++ [(name, style)]

def registerAll (r : Registry) (calls : List (String × Style)) : Registry :=
  calls.foldl (fun r call => (r.register call.1 call.2).2) r

theorem sound_empty : Sound {} where
  names := List.nodup_nil
  contents := List.nodup_nil
  digests := List.nodup_nil
  index := rfl

theorem numbered_injective (preferred : String) : Function.Injective (numbered preferred) := by
  have hne (k : Nat) : preferred ≠ suffixed preferred k := by
    intro h
    have hl := congrArg String.length h
    simp only [suffixed, String.length_append] at hl
    have h1 : "_".length = 1 := rfl
    omega
  intro i j h
  simp only [numbered] at h
  split at h <;> split at h
  · omega
  · exact absurd h (hne _)
  · exact absurd h.symm (hne _)
  · have hn := Naming.numeral_injective (String.append_right_inj _ |>.mp h)
    omega

/-- The search for a free name always ends with one. -/
theorem freeName_isFirstFree (r : Registry) (preferred : String) :
    r.IsFirstFree preferred (r.freeName preferred) := by
  have hlen : (Fields.names r.styles).length ≤ r.size := Nat.le_of_eq (Fields.length_names _)
  obtain ⟨i, hi, hmem⟩ := Naming.exists_candidate_not_mem (numbered_injective preferred) _ hlen
  obtain ⟨k, -, hk, hkfree, hleast⟩ :=
    Naming.firstFree_eq (numbered preferred) (fun name => !r.has name)
      ⟨i, hi, by simpa [has] using Fields.has_eq_false_iff.mpr hmem⟩
  rw [freeName, hk]
  have hkfree : r.has (numbered preferred k) = false := by simpa using hkfree
  have hleast (j : Nat) (hj : j < k) : r.has (numbered preferred j) = true := by
    simpa using hleast j hj
  cases k with
  | zero => exact .inl ⟨hkfree, rfl⟩
  | succ k =>
      refine .inr ⟨hleast 0 (by omega), k + 2, by omega, rfl, hkfree, ?_⟩
      intro j hj hjk
      obtain ⟨j, rfl⟩ := Nat.exists_eq_add_of_le hj
      have h := hleast (j + 1) (by omega)
      rwa [numbered, if_neg (by omega), show j + 1 + 1 = 2 + j by omega] at h

theorem IsFirstFree.has_eq_false {r : Registry} {preferred name : String}
    (h : r.IsFirstFree preferred name) : r.has name = false := by
  rcases h with ⟨hf, rfl⟩ | ⟨-, -, -, -, hf, -⟩
  · exact hf
  · exact hf

def add (r : Registry) (name : String) (style : Style) : Registry :=
  ⟨r.styles ++ [(name, style)], r.nameByDigest ++ [(digest style, name)]⟩

/-- All that a call can do. -/
theorem register_cases {r : Registry} (hr : r.Sound) (preferred : String) (style : Style) :
    (∃ e ∈ r.styles, digest e.2 = digest style ∧ r.register preferred style = (e.1, r)) ∨
      (∀ e ∈ r.styles, digest e.2 ≠ digest style) ∧
        ∃ name, r.IsFirstFree preferred name ∧
          r.register preferred style = (name, r.add name style) := by
  cases h : Fields.get? (digest style) r.nameByDigest with
  | some name =>
      have hmem := Fields.mem_of_get? h
      rw [hr.index] at hmem
      obtain ⟨e, he, heq⟩ := List.mem_map.mp hmem
      obtain ⟨hd, rfl⟩ := Prod.mk.inj heq
      exact .inl ⟨e, he, hd, by simp [register, h]⟩
  | none =>
      refine .inr ⟨fun e he hd => ?_, r.freeName preferred, freeName_isFirstFree r preferred,
        by simp [register, h, add]⟩
      refine Fields.get?_eq_none_iff.mp h ?_
      rw [hr.index, ← hd]
      exact List.mem_map.mpr ⟨_, List.mem_map_of_mem he, rfl⟩

theorem Sound.add {r : Registry} (hr : r.Sound) {name : String} {style : Style}
    (hname : r.has name = false) (hdigest : ∀ e ∈ r.styles, digest e.2 ≠ digest style) :
    (r.add name style).Sound where
  names := nodup_map_concat hr.names fun e he hn =>
    Fields.has_eq_false_iff.mp hname (List.mem_map.mpr ⟨e, he, hn⟩)
  contents := nodup_map_concat hr.contents fun e he hc => hdigest e he (congrArg Digest.sha1 hc)
  digests := nodup_map_concat hr.digests hdigest
  index := by simp [Registry.add, hr.index]

theorem Sound.register {r : Registry} (hr : r.Sound) (preferred : String) (style : Style) :
    (r.register preferred style).2.Sound := by
  rcases register_cases hr preferred style with ⟨e, -, -, heq⟩ | ⟨hd, name, hname, heq⟩
  · rw [heq]
    exact hr
  · rw [heq]
    exact hr.add hname.has_eq_false hd

theorem Sound.registerAll {r : Registry} (hr : r.Sound) (calls : List (String × Style)) :
    (r.registerAll calls).Sound := by
  induction calls generalizing r with
  | nil => exact hr
  | cons call calls ih => exact ih (hr.register call.1 call.2)

theorem Sound.names_of_mem {r : Registry} (hr : r.Sound) {e : String × Style} (he : e ∈ r.styles)
    {style : Style} (hc : content e.2 = content style) : r.Names e.1 style :=
  ⟨e.2, Fields.get?_of_mem hr.names he, hc⟩

theorem Sound.name_eq_iff {r : Registry} (hr : r.Sound) {name name' : String} {s t : Style}
    (hs : r.Names name s) (ht : r.Names name' t) : name = name' ↔ content s = content t := by
  obtain ⟨s', hs', hcs⟩ := hs
  obtain ⟨t', ht', hct⟩ := ht
  constructor
  · rintro rfl
    cases hs'.symm.trans ht'
    exact hcs.symm.trans hct
  · intro h
    have hc : content s' = content t' := hcs.trans (h.trans hct.symm)
    have he := List.inj_on_of_nodup_map hr.contents (Fields.mem_of_get? hs')
      (Fields.mem_of_get? ht') hc
    exact congrArg Prod.fst he

theorem register_spec {r : Registry} (hr : r.Sound) (preferred : String) {style : Style}
    (hfree : CollisionFree (style :: r.styles.map Prod.snd)) :
    r.Registers preferred style (r.register preferred style).1
      (r.register preferred style).2 := by
  have hr' := hr.register preferred style
  rcases register_cases hr preferred style with ⟨e, he, hd, heq⟩ | ⟨hd, name, hname, heq⟩
  · have hc : content e.2 = content style :=
      hfree _ (List.mem_cons_of_mem _ (List.mem_map_of_mem he)) _ List.mem_cons_self hd
    rw [heq] at hr' ⊢
    refine ⟨hr'.names_of_mem he hc, List.prefix_rfl, fun e' he' hc' => ⟨?_, rfl⟩,
      fun hnone => absurd hc (hnone e he)⟩
    exact congrArg Prod.fst (List.inj_on_of_nodup_map hr.contents he he' (hc.trans hc'.symm))
  · rw [heq] at hr' ⊢
    refine ⟨hr'.names_of_mem (e := (name, style)) (by simp [add]) rfl, List.prefix_append _ _,
      fun e he hc => absurd (congrArg Digest.sha1 hc) (hd e he), fun _ => ⟨hname, rfl⟩⟩

theorem registerAll_concat (r : Registry) (calls : List (String × Style)) (preferred : String)
    (style : Style) : r.registerAll (calls ++ [(preferred, style)]) =
      ((r.registerAll calls).register preferred style).2 := by
  rw [registerAll, List.foldl_append]
  rfl

theorem stored_subset (calls : List (String × Style)) :
    (registerAll {} calls).styles.map Prod.snd ⊆ calls.map Prod.snd := by
  induction calls using List.reverseRecOn with
  | nil => exact List.Subset.refl _
  | append_singleton calls call ih =>
      rcases call with ⟨preferred, style⟩
      rw [registerAll_concat, List.map_append]
      rcases register_cases (sound_empty.registerAll calls) preferred style with
        ⟨e, -, -, heq⟩ | ⟨-, name, -, heq⟩
      · rw [heq]
        exact List.subset_append_of_subset_left _ ih
      · rw [heq, add, List.map_append]
        exact List.append_subset.mpr ⟨List.subset_append_of_subset_left _ ih,
          List.subset_append_right _ _⟩

theorem registers_of_calls {calls : List (String × Style)} {preferred : String} {style : Style}
    (hfree : CollisionFree ((calls ++ [(preferred, style)]).map Prod.snd)) :
    (registerAll {} calls).Registers preferred style
      ((registerAll {} calls).register preferred style).1
      (registerAll {} (calls ++ [(preferred, style)])) := by
  rw [registerAll_concat]
  refine register_spec (sound_empty.registerAll calls) preferred (hfree.mono ?_)
  intro s hs
  rw [List.map_append]
  rcases List.mem_cons.mp hs with rfl | hs
  · exact List.mem_append_right _ List.mem_cons_self
  · exact List.mem_append_left _ (stored_subset calls hs)

theorem mem_contents_iff {calls : List (String × Style)}
    (hfree : CollisionFree (calls.map Prod.snd)) (c : String) :
    c ∈ (registerAll {} calls).styles.map (fun e => content e.2) ↔
      c ∈ calls.map fun call => content call.2 := by
  induction calls using List.reverseRecOn with
  | nil => rfl
  | append_singleton calls call ih =>
      rcases call with ⟨preferred, style⟩
      have hcall := registers_of_calls hfree
      have ih := ih (hfree.mono (by simp))
      rw [List.map_append, List.mem_append, ← ih]
      by_cases hknown : ∃ e ∈ (registerAll {} calls).styles, content e.2 = content style
      · obtain ⟨e, he, hc⟩ := hknown
        rw [(hcall.known e he hc).2, List.map_singleton, List.mem_singleton]
        constructor
        · exact .inl
        · rintro (h | rfl)
          · exact h
          · exact List.mem_map.mpr ⟨e, he, hc⟩
      · push Not at hknown
        rw [(hcall.added hknown).2, List.map_append, List.mem_append]
        rfl

theorem size_of_calls {calls : List (String × Style)}
    (hfree : CollisionFree (calls.map Prod.snd)) :
    (registerAll {} calls).size = (calls.map fun call => content call.2).toFinset.card := by
  have hr := sound_empty.registerAll calls
  calc (registerAll {} calls).size
      = ((registerAll {} calls).styles.map fun e => content e.2).length := by
        rw [List.length_map, size]
    _ = ((registerAll {} calls).styles.map fun e => content e.2).toFinset.card :=
        (List.toFinset_card_of_nodup hr.contents).symm
    _ = (calls.map fun call => content call.2).toFinset.card := by
        congr 1
        ext c
        rw [List.mem_toFinset, List.mem_toFinset, mem_contents_iff hfree]

/-- At every point of a sequence of calls the registry is sound and has as many entries as distinct
contents were registered, and the next call only adds what is not there. -/
theorem registry_of_calls (calls : List (String × Style))
    (hfree : CollisionFree (calls.map Prod.snd)) :
    ∀ before after, calls = before ++ after →
      (registerAll {} before).Sound ∧
      (registerAll {} before).size = (before.map fun call => content call.2).toFinset.card ∧
      ∀ preferred style rest, after = (preferred, style) :: rest →
        (registerAll {} before).Registers preferred style
          ((registerAll {} before).register preferred style).1
          (registerAll {} (before ++ [(preferred, style)])) := by
  rintro before after rfl
  refine ⟨sound_empty.registerAll before, size_of_calls (hfree.mono (by simp)), ?_⟩
  rintro preferred style rest rfl
  refine registers_of_calls (hfree.mono ?_)
  simp only [List.map_append, List.map_cons, List.map_nil]
  exact List.append_subset.mpr ⟨List.subset_append_left _ _, by simp⟩

def sized (width : Int) : Style := [("width", .ofInt width)]

/-- Three contents, the first of them twice. The second takes the name that the third asks for. -/
def sizedCalls : List (String × Style) :=
  [("title", sized 10), ("title", sized 20), ("title_2", sized 30), ("heading", sized 10)]

theorem registry_of_sizedCalls :
    CollisionFree (sizedCalls.map Prod.snd) ∧ (registerAll {} sizedCalls).Sound ∧
      (registerAll {} sizedCalls).size = 3 := by
  have h10 : content (sized 10) = "\x7b\"width\":10\x7d" := by cbv
  have h20 : content (sized 20) = "\x7b\"width\":20\x7d" := by cbv
  have h30 : content (sized 30) = "\x7b\"width\":30\x7d" := by cbv
  have hfree : CollisionFree (sizedCalls.map Prod.snd) := by
    simp only [CollisionFree, sizedCalls, List.map_cons, List.map_nil, List.forall_mem_cons,
      digest_eq, h10, h20, h30]
    decide +kernel
  obtain ⟨hsound, hsize, -⟩ := registry_of_calls sizedCalls hfree sizedCalls [] (by simp)
  refine ⟨hfree, hsound, hsize.trans ?_⟩
  simp only [sizedCalls, List.map_cons, List.map_nil, h10, h20, h30]
  decide

end Registry

end Mockup.Style
