import Mockup.Proofs.Command.Watching
import Mockup.Proofs.Screen.References
import Mockup.Proofs.Style.Spelling

namespace Mockup

namespace Screen

variable {o : Options} {d : Document} {s : Screen}

/-- The styles of a screen are named, and referred to, by what is spelled as a reference. -/
theorem spelled_of_ofDocument (hn : o.naming.IsPlain) (h : ofDocument o d = .ok s) :
    (∀ name ∈ Fields.names s.bundle.styles, isReference name = true) ∧
      ∃ xs, s.root.preorder = .ok xs ∧ ∀ x ∈ xs, Style.Spelled x := by
  rcases ofDocument_eq_ok h with ⟨t, found, -, hlower⟩ | hempty
  · obtain ⟨placed, e, registry, -, he, ha, hb⟩ := lowerTree_eq_ok hlower
    obtain ⟨hnodes, hregistry⟩ := Style.assign_spelled (Recognition.recognize_spelled hn he)
      Style.Registry.spelled_empty ha
    rw [Style.styles_of_bundle hb]
    exact ⟨hregistry.names, s.root.nodes, Style.preorder_of_assign he ha, hnodes⟩
  · obtain ⟨hroot, hbundle⟩ := Prod.mk.inj hempty
    have hname : isReference emptyStyleRef = true := by decide
    rw [hroot, hbundle]
    refine ⟨List.forall_mem_singleton.mpr hname, _, rfl, fun x hx => ?_⟩
    rw [List.mem_singleton.mp hx]
    exact Style.spelled_branch_iff.mpr hname

end Screen

namespace Command

variable {s : Settings} {o : Output} {d : Document} {σ τ : Session}

def placeIn (directory : Place) (name : String) : Place :=
  { directory with names := directory.names ++ [name] }

theorem isSpelledWith_fileName (screen : Screen) :
    isSpelledWith (fun c => c.isAlphanum || c == '.') (fileName screen) = true := by
  have hname := Naming.isIdentifier_identifier Naming.isPlain_default (screen.name.getD "")
  refine isSpelledWith.append_word (isSpelledWith.mono hname fun c hc => ?_) (by decide +kernel)
  rw [hc, Bool.true_or]

/-- The name of a file is a single part of a path, which leads on from the directory. -/
theorem place_child_fileName (directory : Path) (screen : Screen) :
    '/' ∉ (fileName screen).toList ∧
      (directory.child (fileName screen)).place = placeIn directory.place (fileName screen) := by
  have hname := isSpelledWith_fileName screen
  constructor
  · intro hmem
    rw [isSpelledWith] at hname
    split at hname
    · next c cs hcs =>
        obtain ⟨hc, hrest⟩ := Bool.and_eq_true_iff.mp hname
        rw [hcs] at hmem
        rcases List.mem_cons.mp hmem with rfl | hmem
        · exact absurd hc (by decide)
        · exact absurd (List.all_eq_true.mp hrest _ hmem) (by decide)
    · cases hname
  · have hup : (fileName screen != "..") = true := by
      rw [bne_iff_ne]
      intro hup
      rw [hup] at hname
      exact absurd hname (by decide +kernel)
    rw [Path.place, Path.child, List.foldl_append, List.foldl_cons, List.foldl_nil, Place.enter,
      if_pos hup]
    rfl

/-- A document that is saved is written to one file right in the directory for screens. -/
theorem files_of_save_in (h : (save s o d).run σ = .ok ((), τ)) :
    ∃ screen directory, (do Screen.ofDocument (← s.options) d) = .ok screen ∧
      o.directory = some directory ∧
      let place := placeIn (Path.ofText directory).place (fileName screen)
      '/' ∉ (fileName screen).toList ∧ τ.files.isFile place = true ∧
        ∀ q ≠ place, τ.files.get? q = σ.files.get? q := by
  obtain ⟨p, content, hlowered, hfiles⟩ := files_eq_of_save h
  rw [lowered] at hlowered
  obtain ⟨screen, hscreen, hlowered⟩ := Result.bind_eq_ok_iff.mp hlowered
  split at hlowered
  · cases hlowered
  · cases hlowered
  · next directory indent hdirectory hindent =>
      obtain ⟨text, -, hlowered⟩ := Result.bind_eq_ok_iff.mp hlowered
      cases hlowered
      obtain ⟨hslash, hplace⟩ := place_child_fileName (Path.ofText directory) screen
      rw [hplace] at hfiles
      refine ⟨screen, directory, Result.mapError_eq_ok_iff.mp hscreen, hdirectory, hslash, ?_, ?_⟩
      · rw [hfiles, Files.isFile, Files.get?_put_self]
        rfl
      · intro q hq
        rw [hfiles, Files.get?_put_of_ne hq, Files.get?_put_of_ne hq]

/-- Whatever the layers of a document are called and whatever their ids are, under the default words
all names of styles in its screen and all references to them are spelled as references, and a name
becomes an identifier. So the file for a screen is a file right in the directory for screens,
whatever the screen is called: nothing else is written when a document is saved. -/
theorem names_are_spelled :
    (∀ (o : Options) (d : Document) (s : Screen), o.naming = {} →
      Screen.ofDocument o d = .ok s →
      (∀ name ∈ Fields.names s.bundle.styles, isReference name = true) ∧
      ∃ xs, s.root.preorder = .ok xs ∧
        ∀ x ∈ xs, ∀ ref ∈ Style.references x, isReference ref.name = true) ∧
    (∀ name, isIdentifier (({} : Naming).identifier name) = true) ∧
    ∀ (s : Settings) (o : Output) (d : Document) (σ τ : Session),
      (save s o d).run σ = .ok ((), τ) →
      ∃ screen directory, (do Screen.ofDocument (← s.options) d) = .ok screen ∧
        o.directory = some directory ∧
        let place := placeIn (Path.ofText directory).place (fileName screen)
        '/' ∉ (fileName screen).toList ∧ τ.files.isFile place = true ∧
          ∀ q ≠ place, τ.files.get? q = σ.files.get? q := by
  refine ⟨?_, Naming.isIdentifier_identifier Naming.isPlain_default,
    fun s o d σ τ h => files_of_save_in h⟩
  exact fun o d s hn h => Screen.spelled_of_ofDocument (hn ▸ Naming.isPlain_default) h

/-- A button whose name leads out of any directory, with a label in another script that has no id. -/
def strayButton : Document :=
  .node { id := some "::", name := some "../../42 Übersicht Button", kind := some "FRAME",
          box := some { width := some 120, height := some 40 } }
    [.node { id := some "", name := some "概要", kind := some "TEXT", text := some "OK",
             box := some { width := some 40, height := some 16 } } []]

theorem names_are_spelled_strayButton :
    (∃ s xs, Screen.ofDocument {} strayButton = .ok s ∧ s.root.preorder = .ok xs ∧
      (xs.flatMap Style.references).map Style.Reference.name =
        ["style42BersichtButton", "text_"] ∧
      ∀ x ∈ xs, ∀ ref ∈ Style.references x, isReference ref.name = true) ∧
    ∃ τ screen, (save {} ⟨some "out", some .none⟩ strayButton).run {} = .ok ((), τ) ∧
      fileName screen = "style42BersichtButton.ir.json" ∧
      τ.files.isFile (placeIn { names := ["out"] } (fileName screen)) = true := by
  have hrun : (Screen.ofDocument {} strayButton >>= fun s => s.root.preorder >>= fun xs =>
      .ok ((xs.flatMap Style.references).map Style.Reference.name, fileName s)) =
      .ok (["style42BersichtButton", "text_"], "style42BersichtButton.ir.json") := by
    decide +kernel
  have hsave : ((save {} ⟨some "out", some .none⟩ strayButton).run {}).map (fun _ => ()) =
      .ok () := by decide +kernel
  obtain ⟨s, hs, hrun⟩ := Result.bind_eq_ok_iff.mp hrun
  obtain ⟨xs, hxs, hrun⟩ := Result.bind_eq_ok_iff.mp hrun
  obtain ⟨hnames, hfile⟩ := Prod.mk.inj (Except.ok.inj hrun)
  obtain ⟨⟨⟨⟩, τ⟩, hτ, -⟩ := Result.map_eq_ok_iff.mp hsave
  obtain ⟨-, xs', hxs', hspelled⟩ := names_are_spelled.1 {} strayButton s rfl hs
  cases hxs.symm.trans hxs'
  obtain ⟨screen, directory, hscreen, hdirectory, -, hwritten, -⟩ :=
    names_are_spelled.2.2 {} _ strayButton {} τ hτ
  obtain ⟨o, ho, hscreen⟩ := Result.bind_eq_ok_iff.mp hscreen
  obtain rfl : o = {} := (Except.ok.inj ho).symm
  cases hs.symm.trans hscreen
  cases hdirectory
  have hplace : (Path.ofText "out").place = { names := ["out"] } := by decide +kernel
  rw [hplace] at hwritten
  exact ⟨⟨s, xs, hs, hxs, hnames, hspelled⟩, τ, s, hτ, hfile, hwritten⟩

end Command

end Mockup
