import Mockup.Address
import Mockup.Proofs.Naming.Identifier
import Mockup.Proofs.Result
import Mockup.Proofs.Text.Splitting

namespace Mockup.Address

open Text

def isOver (others : List Char) (c : Char) : Bool := isPlain c || others.contains c

/-- An id as it stands in a query: a dash or an escape for every colon. -/
inductive IsWritten : List Char → List Char → Prop
  | nil : IsWritten [] []
  | keep {c : Char} {id text : List Char} (hc : c ≠ ':') (h : IsWritten id text) :
      IsWritten (c :: id) (c :: text)
  | dash {id text : List Char} (h : IsWritten id text) : IsWritten (':' :: id) ('-' :: text)
  | escape {id text : List Char} (h : IsWritten id text) :
      IsWritten (':' :: id) ('%' :: '3' :: 'A' :: text)

def host : String := "https://www.figma.com"

def written (kind key title : String) (entries : List (String × String)) : String :=
  host ++ "/" ++ kind ++ "/" ++ key ++ "/" ++ title ++ "?" ++
    "&".intercalate (entries.map fun e => e.1 ++ "=" ++ e.2)

variable {c : Char} {cs : List Char} {others signs : List Char}

theorem not_mem_of_isOver (h : isOver others c = true)
    (hsigns : signs.any (isOver others) = false) : c ∉ signs :=
  fun hmem => List.any_eq_false.mp hsigns c hmem h

theorem not_mem_of_forall_isOver {d : Char} (h : ∀ c ∈ cs, isOver others c = true)
    (hd : isOver others d = false) : d ∉ cs := by
  intro hmem
  rw [h d hmem] at hd
  cases hd

theorem lt_of_isOver (h : isOver others c = true)
    (hothers : others.all (fun d => decide (d.toNat < 128)) = true) : c.toNat < 128 := by
  rcases Bool.or_eq_true_iff.mp h with hplain | hother
  · exact toNat_lt_of_isPlain hplain
  · exact of_decide_eq_true (List.all_eq_true.mp hothers c (List.contains_iff_mem.mp hother))

theorem unescape_cons (h : c ≠ '%') :
    unescape (c :: cs) = String.utf8EncodeChar c ++ unescape cs := by
  rw [unescape.eq_def]
  split
  · next heq => cases heq
  · next heq =>
      cases heq
      exact (h rfl).elim
  · next heq =>
      cases heq
      rfl

theorem utf8EncodeChar_of_lt (h : c.toNat < 128) :
    String.utf8EncodeChar c = [UInt8.ofNat c.toNat] := by
  have hsize : c.utf8Size = 1 := by
    rw [Char.utf8Size_eq_one_iff, UInt32.le_iff_toNat_le]
    exact Nat.le_of_lt_succ h
  exact String.utf8EncodeChar_eq_singleton hsize

theorem mend_cons {b : UInt8} {bytes : List UInt8} (h : b.toNat < 128) :
    Utf8.mend (b :: bytes) = Char.ofNat b.toNat :: Utf8.mend bytes := by
  have hstart : Utf8.start b.toNat = .whole (Char.ofNat b.toNat) := by
    rw [Utf8.start, if_pos h]
  rw [Utf8.mend, Utf8.scan, hstart]
  rfl

theorem decoded_cons (hlt : c.toNat < 128) (hc : c ∉ ['%', '+']) :
    decoded (c :: cs) = c :: decoded cs := by
  have hplus : plusToBlank c = c := if_neg fun h => hc (by simp [h])
  have hbyte : (UInt8.ofNat c.toNat).toNat = c.toNat :=
    UInt8.toNat_ofNat_of_lt' (Nat.lt_trans hlt (by decide))
  rw [decoded, List.map_cons, hplus, unescape_cons fun h => hc (by simp [h]),
    utf8EncodeChar_of_lt hlt, List.singleton_append, mend_cons (by rwa [hbyte]), hbyte,
    Char.ofNat_toNat, decoded]

theorem decoded_escape : decoded ('%' :: '3' :: 'A' :: cs) = ':' :: decoded cs :=
  mend_cons (by decide)

theorem decoded_eq_self (h : ∀ c ∈ cs, isOver ['_'] c = true) : decoded cs = cs := by
  induction cs with
  | nil => rfl
  | cons c cs ih =>
      obtain ⟨hc, hcs⟩ := List.forall_mem_cons.mp h
      rw [decoded_cons (lt_of_isOver hc (by decide)) (not_mem_of_isOver hc (by decide)), ih hcs]

/-- The dashes and the escapes in an id are colons again. -/
theorem map_dashToColon_decoded {id text : List Char} (h : IsWritten id text)
    (hid : ∀ c ∈ id, isOver [':', ';'] c = true) : (decoded text).map dashToColon = id := by
  induction h with
  | nil => rfl
  | @keep c id text hcolon _ ih =>
      obtain ⟨hc, hid⟩ := List.forall_mem_cons.mp hid
      have hdash : c ∉ ['-'] := not_mem_of_isOver hc (by decide)
      rw [decoded_cons (lt_of_isOver hc (by decide)) (not_mem_of_isOver hc (by decide)),
        List.map_cons, ih hid, dashToColon, if_neg (by simpa using hdash)]
  | dash _ ih =>
      obtain ⟨-, hid⟩ := List.forall_mem_cons.mp hid
      rw [decoded_cons (by decide) (by decide), List.map_cons, ih hid]
      rfl
  | escape _ ih =>
      obtain ⟨-, hid⟩ := List.forall_mem_cons.mp hid
      rw [decoded_escape, List.map_cons, ih hid]
      rfl

theorem isOver_of_isWritten {id text : List Char} (h : IsWritten id text)
    (hid : ∀ c ∈ id, isOver [':', ';'] c = true) : ∀ c ∈ text, isOver [';', '-', '%'] c = true := by
  induction h with
  | nil => exact fun c hc => absurd hc List.not_mem_nil
  | @keep c id text hcolon _ ih =>
      obtain ⟨hc, hid⟩ := List.forall_mem_cons.mp hid
      refine List.forall_mem_cons.mpr ⟨?_, ih hid⟩
      simp only [isOver, Bool.or_eq_true, List.contains_iff_mem, List.mem_cons, List.not_mem_nil,
        or_false] at hc ⊢
      tauto
  | dash _ ih =>
      obtain ⟨-, hid⟩ := List.forall_mem_cons.mp hid
      exact List.forall_mem_cons.mpr ⟨by decide, ih hid⟩
  | escape _ ih =>
      obtain ⟨-, hid⟩ := List.forall_mem_cons.mp hid
      simp only [List.forall_mem_cons]
      exact ⟨by decide, by decide, by decide, ih hid⟩

theorem keyAtStart?_of_segment {kind : String} {key rest : List Char}
    (hkind : kind = "file" ∨ kind = "design") (hne : key ≠ [])
    (hkey : ∀ c ∈ key, isPlain c = true) :
    keyAtStart? ('/' :: kind.toList ++ '/' :: key ++ '/' :: rest) = some key := by
  have htake : (key ++ '/' :: rest).takeWhile isPlain = key := by
    rw [List.takeWhile_append_of_pos hkey, List.takeWhile_cons_of_neg (by decide), List.append_nil]
  have hempty : key.isEmpty = false := List.isEmpty_eq_false_iff.mpr hne
  rw [keyAtStart?, segments, List.findSome?_cons]
  rcases hkind with rfl | rfl
  · have hfile : ("/file/".toList.isPrefixOf
        ('/' :: "file".toList ++ '/' :: key ++ '/' :: rest)) = true := rfl
    have hdrop : ('/' :: "file".toList ++ '/' :: key ++ '/' :: rest).drop "/file/".toList.length =
        key ++ '/' :: rest := rfl
    simp only [hfile, hdrop, htake, hempty, if_true, Bool.false_eq_true, if_false]
  · have hfile : ("/file/".toList.isPrefixOf
        ('/' :: "design".toList ++ '/' :: key ++ '/' :: rest)) = false := rfl
    have hdesign : ("/design/".toList.isPrefixOf
        ('/' :: "design".toList ++ '/' :: key ++ '/' :: rest)) = true := rfl
    have hdrop : ('/' :: "design".toList ++ '/' :: key ++ '/' :: rest).drop
        "/design/".toList.length = key ++ '/' :: rest := rfl
    simp only [hfile, hdesign, hdrop, htake, hempty, if_true, Bool.false_eq_true, if_false,
      List.findSome?_cons]

def stops : List Char := ['#', '\t', '\r', '\n']

/-- The parts of an address whose path and query have none of the signs that end them. -/
theorem ofText_written {path query : List Char}
    (hpath : ∀ c ∈ path, c ∉ '?' :: stops)
    (hquery : ∀ c ∈ query, c ∉ stops) :
    ofText (String.ofList (host.toList ++ '/' :: path ++ '?' :: query)) =
      .ok ⟨'/' :: path, query⟩ := by
  have hsigns {c : Char} (h : c ∉ stops) :
      (c != '#') = true ∧ (!isBreak c) = true := by
    simpa [stops, isBreak, and_assoc] using h
  have hpath : ∀ c ∈ '/' :: path, (c != '?') = true ∧ (c != '#') = true ∧ (!isBreak c) = true := by
    refine List.forall_mem_cons.mpr ⟨by decide, fun c hc => ?_⟩
    obtain ⟨hne, hrest⟩ := not_or.mp (mt List.mem_cons.mpr (hpath c hc))
    exact ⟨by simpa using hne, hsigns hrest⟩
  have hquery : ∀ c ∈ '?' :: query, (c != '#') = true ∧ (!isBreak c) = true :=
    List.forall_mem_cons.mpr ⟨by decide, fun c hc => hsigns (hquery c hc)⟩
  have hbreaks : ∀ c ∈ host.toList ++ '/' :: path ++ '?' :: query, (!isBreak c) = true := by
    refine List.forall_mem_append.mpr ⟨List.forall_mem_append.mpr ⟨?_, ?_⟩, ?_⟩
    · exact List.all_eq_true.mp (by decide)
    · exact fun c hc => (hpath c hc).2.2
    · exact fun c hc => (hquery c hc).2
  have hfragment : ∀ c ∈ '/' :: path ++ '?' :: query, (c != '#') = true :=
    List.forall_mem_append.mpr ⟨fun c hc => (hpath c hc).2.1, fun c hc => (hquery c hc).1⟩
  have hquestion : ∀ c ∈ '/' :: path, (c != '?') = true := fun c hc => (hpath c hc).1
  -- what precedes the path is the same in all addresses
  have hlead : (host.toList ++ '/' :: path ++ '?' :: query).dropWhile isLead =
      host.toList ++ '/' :: path ++ '?' :: query := rfl
  have hscheme : afterScheme (host.toList ++ '/' :: path ++ '?' :: query) =
      "//www.figma.com".toList ++ '/' :: path ++ '?' :: query := rfl
  have hhost : splitHost ("//www.figma.com".toList ++ '/' :: path ++ '?' :: query) =
      ("www.figma.com".toList, '/' :: path ++ '?' :: query) := rfl
  have hbrackets : ("www.figma.com".toList.contains '[' != "www.figma.com".toList.contains ']') =
      false := by decide
  have hhidden : "www.figma.com".toList.any hiddenSeparators.contains = false := by decide
  rw [ofText, String.toList_ofList, hlead, List.filter_eq_self.mpr hbreaks, hscheme, hhost]
  simp only [hbrackets, hhidden, Bool.false_eq_true, if_false]
  rw [List.takeWhile_eq_self_iff.mpr hfragment, List.takeWhile_append_of_pos hquestion,
    List.dropWhile_append_of_pos hquestion, List.takeWhile_cons_of_neg (by decide),
    List.dropWhile_cons_of_neg (by decide), List.append_nil]
  rfl

def piece (entry : String × String) : List Char := entry.1.toList ++ '=' :: entry.2.toList

theorem parameter?_piece {name value : String} (h : '=' ∉ name.toList) :
    parameter? (piece (name, value)) =
      if value = "" then none else some (decoded name.toList, decoded value.toList) := by
  have hname : ∀ c ∈ name.toList, (c != '=') = true := by
    intro c hc
    have hne : c ≠ '=' := fun heq => h (heq ▸ hc)
    simpa using hne
  rw [parameter?, piece, List.dropWhile_append_of_pos hname, List.takeWhile_append_of_pos hname,
    List.dropWhile_cons_of_neg (by decide), List.takeWhile_cons_of_neg (by decide),
    List.append_nil]
  cases hvalue : value.toList with
  | nil =>
      have hempty : value = "" := String.toList_inj.mp hvalue
      simp [hempty]
  | cons c rest =>
      have hne : value ≠ "" := by
        rintro rfl
        cases hvalue
      simp [hne]

def IsClean (entry : String × String) : Prop := ∀ c ∈ piece entry, c ∉ '&' :: stops

theorem isClean_of_isOver {entry : String × String} {others' : List Char}
    (hname : ∀ c ∈ entry.1.toList, isOver others c = true)
    (hvalue : ∀ c ∈ entry.2.toList, isOver others' c = true)
    (hothers : ('&' :: stops).any (isOver others) = false)
    (hothers' : ('&' :: stops).any (isOver others') = false) : IsClean entry := by
  refine List.forall_mem_append.mpr ⟨?_, List.forall_mem_cons.mpr ⟨by decide, ?_⟩⟩
  · exact fun c hc => not_mem_of_isOver (hname c hc) hothers
  · exact fun c hc => not_mem_of_isOver (hvalue c hc) hothers'

theorem parameters_pieces {path : List Char} {entries : List (String × String)}
    (h : ∀ entry ∈ entries, IsClean entry) :
    parameters ⟨path, ['&'].intercalate (entries.map piece)⟩ =
      (entries.map piece).filterMap parameter? := by
  cases entries with
  | nil => rfl
  | cons entry entries =>
      refine congrArg (List.filterMap parameter?) (splitOn_intercalate (List.cons_ne_nil _ _) ?_)
      intro cs hcs hmem
      obtain ⟨entry, hentry, rfl⟩ := List.mem_map.mp hcs
      exact h entry hentry '&' hmem (by decide)

def ArePlain (entries : List (String × String)) : Prop :=
  ∀ entry ∈ entries, entry.1.toList.all (isOver ['_']) = true ∧
    entry.2.toList.all (isOver ['_']) = true

theorem ArePlain.isClean {entries : List (String × String)} (h : ArePlain entries) :
    ∀ entry ∈ entries, IsClean entry :=
  fun entry hentry => isClean_of_isOver (List.all_eq_true.mp (h entry hentry).1)
    (List.all_eq_true.mp (h entry hentry).2) (by decide) (by decide)

/-- None of these parameters is taken for the id of a node. -/
theorem ArePlain.find?_eq_none {entries : List (String × String)} (h : ArePlain entries) :
    ((entries.map piece).filterMap parameter?).find? (fun p => p.1 == "node-id".toList) = none := by
  apply List.find?_eq_none.mpr
  intro p hp
  obtain ⟨cs, hcs, hp⟩ := List.mem_filterMap.mp hp
  obtain ⟨⟨name, value⟩, hentry, rfl⟩ := List.mem_map.mp hcs
  have hname := List.all_eq_true.mp (h _ hentry).1
  have hdash : '-' ∉ name.toList := not_mem_of_forall_isOver hname (by decide)
  rw [parameter?_piece (not_mem_of_forall_isOver hname (by decide)), decoded_eq_self hname] at hp
  split at hp
  · cases hp
  · cases hp
    intro heq
    have hnode : name.toList = "node-id".toList := beq_iff_eq.mp heq
    exact hdash (by rw [hnode]; decide)

theorem parameter?_node {id text : String} (hne : id ≠ "")
    (htext : IsWritten id.toList text.toList) :
    parameter? (piece ("node-id", text)) = some ("node-id".toList, decoded text.toList) := by
  have htextne : text ≠ "" := by
    rintro rfl
    generalize hchars : id.toList = cs at htext
    cases htext
    exact hne (String.toList_inj.mp hchars)
  have hname : '=' ∉ "node-id".toList := by decide
  rw [parameter?_piece hname, if_neg htextne]
  rfl

theorem toList_written (kind key title : String) (entries : List (String × String)) :
    (written kind key title entries).toList =
      host.toList ++ '/' :: (kind.toList ++ '/' :: key.toList ++ '/' :: title.toList) ++
        '?' :: ['&'].intercalate (entries.map piece) := by
  have hpiece : (String.toList ∘ fun e : String × String => e.1 ++ "=" ++ e.2) = piece := by
    funext e
    simp [piece]
  simp [written, String.toList_intercalate, hpiece]

/-- The key is the one in the path, and the id is looked up among the parameters. -/
theorem target_written {kind key title : String} {entries : List (String × String)}
    (hkind : kind = "file" ∨ kind = "design") (hne : key ≠ "")
    (hkey : key.toList.all (isOver []) = true)
    (htitle : title.toList.all (isOver ['_', '-']) = true)
    (hentries : ∀ entry ∈ entries, IsClean entry) :
    target (written kind key title entries) =
      .ok (key, ((((entries.map piece).filterMap parameter?).find? fun p =>
        p.1 == "node-id".toList).map (·.2)).map nodeId) := by
  have hpath : ∀ c ∈ kind.toList ++ '/' :: key.toList ++ '/' :: title.toList,
      c ∉ '?' :: stops := by
    have hkind : kind.toList.all (isOver []) = true := by
      rcases hkind with rfl | rfl <;> decide
    simp only [List.forall_mem_append, List.forall_mem_cons]
    refine ⟨⟨?_, by decide, ?_⟩, by decide, ?_⟩
    · exact fun c hc => not_mem_of_isOver (List.all_eq_true.mp hkind c hc) (by decide)
    · exact fun c hc => not_mem_of_isOver (List.all_eq_true.mp hkey c hc) (by decide)
    · exact fun c hc => not_mem_of_isOver (List.all_eq_true.mp htitle c hc) (by decide)
  have hquery : ∀ c ∈ ['&'].intercalate (entries.map piece), c ∉ stops := by
    apply forall_mem_intercalate (P := fun c => c ∉ stops) (by decide)
    intro cs hcs c hc hmem
    obtain ⟨entry, hentry, rfl⟩ := List.mem_map.mp hcs
    exact hentries entry hentry c hc (List.mem_cons_of_mem _ hmem)
  have hchars : key.toList ≠ [] := fun hnil => hne (String.toList_inj.mp hnil)
  have hplain : ∀ c ∈ key.toList, isPlain c = true := by
    simpa [isOver] using hkey
  have hfound : key? ('/' :: (kind.toList ++ '/' :: key.toList ++ '/' :: title.toList)) =
      some key.toList := by
    rw [key?, ← List.cons_append, ← List.cons_append, keyAtStart?_of_segment hkind hchars hplain,
      Option.some_or]
  have hparts := ofText_written hpath hquery
  rw [← toList_written, String.ofList_toList] at hparts
  rw [target, hparts, Result.ok_bind]
  simp only [hfound, get?, parameters_pieces hentries, String.ofList_toList]
  rfl

/-- An address gives the key in its path, and the id of the node that its query names, if it names
one. -/
theorem target_of_written {kind key title : String} {before after : List (String × String)}
    (hkind : kind = "file" ∨ kind = "design") (hne : key ≠ "")
    (hkey : key.toList.all (isOver []) = true)
    (htitle : title.toList.all (isOver ['_', '-']) = true)
    (hbefore : ArePlain before) (hafter : ArePlain after) :
    target (written kind key title (before ++ after)) = .ok (key, none) ∧
      ∀ id text : String, id ≠ "" → id.toList.all (isOver [':', ';']) = true →
        IsWritten id.toList text.toList →
        target (written kind key title (before ++ ("node-id", text) :: after)) =
          .ok (key, some id) := by
  constructor
  · have hplain : ArePlain (before ++ after) := List.forall_mem_append.mpr ⟨hbefore, hafter⟩
    rw [target_written hkind hne hkey htitle hplain.isClean, hplain.find?_eq_none]
    rfl
  · intro id text hidne hid htext
    replace hid := List.all_eq_true.mp hid
    have hclean : ∀ entry ∈ before ++ ("node-id", text) :: after, IsClean entry := by
      refine List.forall_mem_append.mpr ⟨hbefore.isClean, List.forall_mem_cons.mpr ⟨?_, ?_⟩⟩
      · have hname : "node-id".toList.all (isOver ['-']) = true := by decide
        exact isClean_of_isOver (List.all_eq_true.mp hname) (isOver_of_isWritten htext hid)
          (by decide) (by decide)
      · exact hafter.isClean
    have hfirst (rest : List (List Char × List Char)) :
        (("node-id".toList, decoded text.toList) :: rest).find? (fun p => p.1 == "node-id".toList) =
          some ("node-id".toList, decoded text.toList) := List.find?_cons_of_pos BEq.rfl
    rw [target_written hkind hne hkey htitle hclean, List.map_append, List.filterMap_append,
      List.find?_append, hbefore.find?_eq_none, Option.none_or, List.map_cons,
      List.filterMap_cons_some (parameter?_node hidne htext), hfirst, Option.map_some,
      Option.map_some, nodeId, map_dashToColon_decoded htext hid, String.ofList_toList]

theorem target_of_written_nestedInstance :
    ArePlain [("file", "design"), ("t", "")] ∧ ArePlain [("node_id", "9")] ∧
      IsWritten "I5:6;7:8".toList "I5-6;7%3A8".toList ∧
      target "https://www.figma.com/design/Ab3/file-Ab4_?file=design&t=&node-id=I5-6;7%3A8&node_id=9" =
        .ok ("Ab3", some "I5:6;7:8") := by
  have hbefore : ArePlain [("file", "design"), ("t", "")] := by
    intro entry hentry
    rcases List.mem_pair.mp hentry with rfl | rfl <;> decide
  have hafter : ArePlain [("node_id", "9")] := by
    intro entry hentry
    rcases List.mem_singleton.mp hentry with rfl
    decide
  have htext : IsWritten "I5:6;7:8".toList "I5-6;7%3A8".toList :=
    .keep (by decide) (.keep (by decide) (.dash (.keep (by decide) (.keep (by decide)
      (.keep (by decide) (.escape (.keep (by decide) .nil)))))))
  have hurl : written "design" "Ab3" "file-Ab4_"
      ([("file", "design"), ("t", "")] ++ ("node-id", "I5-6;7%3A8") :: [("node_id", "9")]) =
      "https://www.figma.com/design/Ab3/file-Ab4_?file=design&t=&node-id=I5-6;7%3A8&node_id=9" := by
    decide
  refine ⟨hbefore, hafter, htext, ?_⟩
  rw [← hurl]
  exact (target_of_written (.inr rfl) (by decide) (by decide) (by decide) hbefore hafter).2 _ _
    (by decide) (by decide) htext

end Mockup.Address
