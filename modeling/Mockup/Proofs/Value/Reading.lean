import Mockup.Proofs.Value.Fields
import Mockup.Proofs.Value.Quotation

namespace Mockup

namespace Value

@[elab_as_elim, induction_eliminator]
theorem induct {motive : Value → Prop} (null : motive .null) (bool : ∀ b, motive (.bool b))
    (number : ∀ n, motive (.number n)) (text : ∀ s, motive (.text s))
    (list : ∀ items, (∀ v ∈ items, motive v) → motive (.list items))
    (object : ∀ fields, (∀ f ∈ fields, motive f.2) → motive (.object fields)) : ∀ v, motive v
  | .null => null
  | .bool b => bool b
  | .number n => number n
  | .text s => text s
  | .list items => list items fun v _ => induct null bool number text list object v
  | .object fields => object fields fun f hf =>
      have : sizeOf f.2 < sizeOf fields := by
        have h := List.sizeOf_lt_of_mem hf
        have : sizeOf f = 1 + sizeOf f.1 + sizeOf f.2 := by cases f; simp
        omega
      induct null bool number text list object f.2

/-- In every object names are given once. -/
inductive Distinct : Value → Prop
  | null : Distinct .null
  | bool (b : Bool) : Distinct (.bool b)
  | number (n : Number) : Distinct (.number n)
  | text (s : String) : Distinct (.text s)
  | list {items : List Value} (h : ∀ v ∈ items, Distinct v) : Distinct (.list items)
  | object {fields : Fields} (hnames : (Fields.names fields).Nodup)
      (h : ∀ field ∈ fields, Distinct field.2) : Distinct (.object fields)

mutual

def tokensOf : Value → List Token
  | .text s => [.text s]
  | .list [] => [.openList, .closeList]
  | .list (v :: rest) => .openList :: tokensOf v ++ tokensOfItems rest ++ [.closeList]
  | .object [] => [.openObject, .closeObject]
  | .object ((name, v) :: rest) =>
    .openObject :: .text name :: .colon :: tokensOf v ++ tokensOfFields rest ++ [.closeObject]
  | v => [.scalar v]

def tokensOfItems : List Value → List Token
  | [] => []
  | v :: rest => .comma :: tokensOf v ++ tokensOfItems rest

def tokensOfFields : Fields → List Token
  | [] => []
  | (name, v) :: rest => .comma :: .text name :: .colon :: tokensOf v ++ tokensOfFields rest

end

/-- The separators are those of the reader, and all else between the tokens is blank. -/
structure Format.IsPlain (f : Format) : Prop where
  items : ∃ blanks, f.itemSeparator.toList = ',' :: blanks ∧ ∀ c ∈ blanks, isBlankChar c = true
  names : ∃ blanks, f.nameSeparator.toList = ':' :: blanks ∧ ∀ c ∈ blanks, isBlankChar c = true
  indent : ∀ unit, f.indent = some unit → ∀ c ∈ unit.toList, isBlankChar c = true

theorem compact_isPlain : compact.IsPlain where
  items := ⟨[], by decide, by simp⟩
  names := ⟨[], by decide, by simp⟩
  indent := by simp [compact]

/-- How the tokens of a text follow each other, with blanks between them. -/
inductive Tokenizes : List Char → List Token → Prop
  | nil : Tokenizes [] []
  | blank {c : Char} {cs : List Char} {ts : List Token} (hc : isBlankChar c = true)
      (h : Tokenizes cs ts) : Tokenizes (c :: cs) ts
  | token {c : Char} {cs rest : List Char} {t : Token} {ts : List Token}
      (hc : isBlankChar c = false) (ht : nextToken? c (cs ++ rest) = some (t, rest))
      (h : Tokenizes rest ts) : Tokenizes (c :: cs ++ rest) (t :: ts)

namespace Tokenizes

theorem tokensUpTo_eq {cs : List Char} {ts : List Token} (h : Tokenizes cs ts) :
    ∀ {fuel : Nat}, cs.length ≤ fuel → tokensUpTo fuel cs = some ts := by
  induction h with
  | nil => intro fuel _; cases fuel <;> rfl
  | blank hc _ ih =>
      intro fuel hfuel
      cases fuel with
      | zero => simp at hfuel
      | succ fuel =>
          rw [tokensUpTo, if_pos hc]
          exact ih (by simpa using hfuel)
  | @token c cs rest t ts hc ht _ ih =>
      intro fuel hfuel
      cases fuel with
      | zero => simp at hfuel
      | succ fuel =>
          have hrest : rest.length ≤ fuel := by
            simp only [List.cons_append, List.length_cons, List.length_append] at hfuel
            omega
          rw [List.cons_append, tokensUpTo, if_neg (by simp [hc]), ht]
          simp [ih hrest]

theorem blanks {bs cs : List Char} {ts : List Token} (hbs : ∀ c ∈ bs, isBlankChar c = true)
    (h : Tokenizes cs ts) : Tokenizes (bs ++ cs) ts := by
  induction bs with
  | nil => exact h
  | cons b bs ih =>
      exact .blank (hbs b List.mem_cons_self) (ih fun c hc => hbs c (List.mem_cons_of_mem _ hc))

theorem startsWith {cs rest : List Char} {t : Token} {ts : List Token} (hcs : StartsWith cs t)
    (hrest : Number.Stops rest) (h : Tokenizes rest ts) : Tokenizes (cs ++ rest) (t :: ts) := by
  obtain ⟨c, tail, rfl, hc, ht⟩ := hcs
  exact .token hc (ht rest hrest) h

theorem mark {c : Char} {t : Token} {cs : List Char} {ts : List Token} (hc : isBlankChar c = false)
    (ht : markToken? c = some t) (h : Tokenizes cs ts) : Tokenizes (c :: cs) (t :: ts) :=
  @token c [] cs t ts hc (by rw [nextToken?, ht]; rfl) h

end Tokenizes

def IsMark (c : Char) : Prop := c ∈ [',', ':', ']', '}', '\n']

theorem stops_cons {c : Char} (hc : IsMark c) (cs : List Char) : Number.Stops (c :: cs) := by
  intro d hd
  cases hd
  simp only [IsMark, List.mem_cons, List.not_mem_nil, or_false] at hc
  rcases hc with rfl | rfl | rfl | rfl | rfl <;> exact ⟨rfl, by decide, by decide, by decide⟩

theorem stops_lineBreak (f : Format) (level : Nat) {c : Char} (hc : IsMark c) (cs : List Char) :
    Number.Stops (lineBreak f level ++ c :: cs) := by
  rw [lineBreak]
  cases f.indent with
  | none => exact stops_cons hc cs
  | some unit => exact stops_cons (by simp [IsMark]) _

def Written (f : Format) (v : Value) : Prop :=
  ∀ (level : Nat) {rest : List Char} {ts : List Token}, Number.Stops rest → Tokenizes rest ts →
    Tokenizes (written f level v ++ rest) (tokensOf v ++ ts)

section Written

variable {f : Format} (hf : f.IsPlain)

include hf

theorem isBlank_lineBreak (level : Nat) : ∀ c ∈ lineBreak f level, isBlankChar c = true := by
  rw [lineBreak]
  cases hindent : f.indent with
  | none => simp
  | some unit =>
      intro c hc
      rcases List.mem_cons.mp hc with rfl | hc
      · rfl
      · obtain ⟨cs, hcs, hc⟩ := List.mem_flatten.mp hc
        rw [List.eq_of_mem_replicate hcs] at hc
        exact hf.indent unit hindent c hc

/-- What follows an item: the other items and the mark that closes the list. -/
theorem stops_writtenItems (level : Nat) (vs : List Value) {rest : List Char}
    (hrest : Number.Stops rest) : Number.Stops (writtenItems f level vs ++ rest) := by
  cases vs with
  | nil => exact hrest
  | cons v vs =>
      obtain ⟨blanks, hitems, -⟩ := hf.items
      rw [writtenItems, hitems]
      exact stops_cons (by simp [IsMark]) _

theorem stops_writtenFields (level : Nat) (fields : Fields) {rest : List Char}
    (hrest : Number.Stops rest) : Number.Stops (writtenFields f level fields ++ rest) := by
  cases fields with
  | nil => exact hrest
  | cons field fields =>
      obtain ⟨blanks, hitems, -⟩ := hf.items
      obtain ⟨name, v⟩ := field
      rw [writtenFields, hitems]
      exact stops_cons (by simp [IsMark]) _

variable (level : Nat) {rest : List Char} {ts : List Token} (hrest : Number.Stops rest)
  (h : Tokenizes rest ts)

include hrest h

/-- The name of a field and the value after it. -/
theorem tokenizes_field (name : String) {v : Value} (hv : Written f v) :
    Tokenizes (quoted name ++ f.nameSeparator.toList ++ written f level v ++ rest)
      (.text name :: .colon :: tokensOf v ++ ts) := by
  obtain ⟨blanks, hnames, hblanks⟩ := hf.names
  rw [hnames, List.append_assoc, List.append_assoc, List.cons_append]
  exact .startsWith (startsWith_quoted name) (stops_cons (by simp [IsMark]) _)
    (.mark rfl rfl ((hv level hrest h).blanks hblanks))

theorem tokenizes_items {vs : List Value} (hvs : ∀ v ∈ vs, Written f v) :
    Tokenizes (writtenItems f level vs ++ rest) (tokensOfItems vs ++ ts) := by
  obtain ⟨blanks, hitems, hblanks⟩ := hf.items
  induction vs with
  | nil => exact h
  | cons v vs ih =>
      have hlater := ih fun v hv => hvs v (List.mem_cons_of_mem _ hv)
      have hfirst := hvs v List.mem_cons_self level (stops_writtenItems hf level vs hrest) hlater
      simp only [writtenItems, hitems, tokensOfItems, List.cons_append, List.append_assoc]
      exact .mark rfl rfl ((hfirst.blanks (isBlank_lineBreak hf level)).blanks hblanks)

theorem tokenizes_fields {fields : Fields} (hfields : ∀ field ∈ fields, Written f field.2) :
    Tokenizes (writtenFields f level fields ++ rest) (tokensOfFields fields ++ ts) := by
  obtain ⟨blanks, hitems, hblanks⟩ := hf.items
  induction fields with
  | nil => exact h
  | cons field fields ih =>
      obtain ⟨name, v⟩ := field
      have hlater := ih fun field hfield => hfields field (List.mem_cons_of_mem _ hfield)
      have hfirst := tokenizes_field hf level (stops_writtenFields hf level fields hrest)
        hlater name (hfields _ List.mem_cons_self)
      simp only [writtenFields, hitems, tokensOfFields, List.cons_append, List.append_assoc]
        at hfirst ⊢
      exact .mark rfl rfl ((hfirst.blanks (isBlank_lineBreak hf level)).blanks hblanks)

omit hrest h

theorem tokenizes_written (v : Value) : Written f v := by
  induction v with
  | null => exact fun _ => .startsWith (startsWith_word (show ("null", _) ∈ words by simp [words]))
  | bool b =>
      cases b with
      | false =>
          exact fun _ => .startsWith (startsWith_word (show ("false", _) ∈ words by simp [words]))
      | true =>
          exact fun _ => .startsWith (startsWith_word (show ("true", _) ∈ words by simp [words]))
  | number n => exact fun _ => .startsWith (startsWith_text n)
  | text s => exact fun _ => .startsWith (startsWith_quoted s)
  | list items ih =>
      intro level rest ts hrest h
      cases items with
      | nil => exact .mark rfl rfl (.mark rfl rfl h)
      | cons v vs =>
          have hclose : Tokenizes (lineBreak f level ++ ']' :: rest) (.closeList :: ts) :=
            (Tokenizes.mark rfl rfl h).blanks (isBlank_lineBreak hf level)
          have hstops := stops_lineBreak f level (c := ']') (by simp [IsMark]) rest
          have hlater := tokenizes_items hf (level + 1) hstops hclose
            fun v hv => ih v (List.mem_cons_of_mem _ hv)
          have hfirst := ih v List.mem_cons_self (level + 1)
            (stops_writtenItems hf _ _ hstops) hlater
          simp only [written, tokensOf, List.cons_append, List.append_assoc, List.nil_append]
          exact .mark rfl rfl (hfirst.blanks (isBlank_lineBreak hf _))
  | object fields ih =>
      intro level rest ts hrest h
      cases fields with
      | nil => exact .mark rfl rfl (.mark rfl rfl h)
      | cons field fields =>
          obtain ⟨name, v⟩ := field
          have hclose : Tokenizes (lineBreak f level ++ '}' :: rest) (.closeObject :: ts) :=
            (Tokenizes.mark rfl rfl h).blanks (isBlank_lineBreak hf level)
          have hstops := stops_lineBreak f level (c := '}') (by simp [IsMark]) rest
          have hlater := tokenizes_fields hf (level + 1) hstops hclose
            fun field hfield => ih field (List.mem_cons_of_mem _ hfield)
          have hfirst := tokenizes_field hf (level + 1)
            (stops_writtenFields hf _ _ hstops) hlater name (ih _ List.mem_cons_self)
          simp only [written, tokensOf, List.cons_append, List.append_assoc, List.nil_append]
            at hfirst ⊢
          exact .mark rfl rfl (hfirst.blanks (isBlank_lineBreak hf _))

theorem tokens_written (v : Value) (level : Nat) :
    tokens (written f level v) = some (tokensOf v) := by
  have h := tokenizes_written hf v level (by simp [Number.Stops]) .nil
  rw [List.append_nil, List.append_nil] at h
  exact h.tokensUpTo_eq (Nat.le_refl _)

end Written

def IsRead (v : Value) : Prop :=
  ∀ (frames : List Frame) (last : Value) (ts : List Token),
    (tokensOf v ++ ts).foldlM Reading.step ⟨frames, .value, last⟩ =
      ts.foldlM Reading.step (.complete frames v)

theorem foldlM_step {r r' : Reading} {t : Token} (h : r.step t = some r') (ts : List Token) :
    (t :: ts).foldlM Reading.step r = ts.foldlM Reading.step r' := by
  rw [List.foldlM_cons, h]
  rfl

/-- No value starts with the mark that closes a list. -/
theorem step_valueOrClose {v : Value} (frames : List Frame) (last : Value) :
    ∃ t ts, tokensOf v = t :: ts ∧ Reading.step ⟨frames, .valueOrClose, last⟩ t =
      Reading.step ⟨frames, .value, last⟩ t := by
  cases v with
  | null | bool | number | text => exact ⟨_, _, rfl, rfl⟩
  | list items => cases items <;> exact ⟨_, _, rfl, rfl⟩
  | object fields => cases fields <;> exact ⟨_, _, rfl, rfl⟩

theorem IsRead.valueOrClose {v : Value} (hv : IsRead v) (frames : List Frame) (last : Value)
    (ts : List Token) :
    (tokensOf v ++ ts).foldlM Reading.step ⟨frames, .valueOrClose, last⟩ =
      ts.foldlM Reading.step (.complete frames v) := by
  obtain ⟨t, tail, htokens, hstep⟩ := step_valueOrClose (v := v) frames last
  have hv := hv frames last ts
  rw [htokens, List.cons_append, List.foldlM_cons] at hv ⊢
  rw [hstep, hv]

theorem foldlM_items {items : List Value} (h : ∀ v ∈ items, IsRead v) (read : List Value)
    (frames : List Frame) (ts : List Token) :
    (tokensOfItems items ++ .closeList :: ts).foldlM Reading.step
      ⟨.list read :: frames, .separator, .null⟩ =
      ts.foldlM Reading.step (.complete frames (.list (read.reverse ++ items))) := by
  induction items generalizing read with
  | nil => rw [List.append_nil]; exact foldlM_step rfl ts
  | cons v items ih =>
      have hv := h v List.mem_cons_self (.list read :: frames) .null
        (tokensOfItems items ++ .closeList :: ts)
      have hitems := ih (fun w hw => h w (List.mem_cons_of_mem _ hw)) (v :: read)
      rw [List.reverse_cons, List.append_assoc, List.singleton_append] at hitems
      rw [tokensOfItems, List.cons_append, List.cons_append, List.append_assoc,
        foldlM_step rfl, hv]
      exact hitems

theorem foldlM_fields {fields : Fields} (h : ∀ field ∈ fields, IsRead field.2) (read : Fields)
    (name : String) (frames : List Frame) (ts : List Token) :
    (tokensOfFields fields ++ .closeObject :: ts).foldlM Reading.step
      ⟨.object read name :: frames, .separator, .null⟩ =
      ts.foldlM Reading.step
        (.complete frames (.object (Fields.ofList (read.reverse ++ fields)))) := by
  induction fields generalizing read name with
  | nil => rw [List.append_nil]; exact foldlM_step rfl ts
  | cons field fields ih =>
      obtain ⟨name', v⟩ := field
      have hv := h (name', v) List.mem_cons_self (.object read name' :: frames) .null
        (tokensOfFields fields ++ .closeObject :: ts)
      have hfields := ih (fun f hf => h f (List.mem_cons_of_mem _ hf)) ((name', v) :: read) name'
      rw [List.reverse_cons, List.append_assoc, List.singleton_append] at hfields
      simp only [tokensOfFields, List.cons_append, List.append_assoc]
      rw [foldlM_step rfl, foldlM_step rfl, foldlM_step rfl, hv]
      exact hfields

theorem isRead {v : Value} (hv : v.Distinct) : IsRead v := by
  induction hv with
  | null | bool | number | text => exact fun frames last ts => foldlM_step rfl ts
  | @list items _ ih =>
      intro frames last ts
      cases items with
      | nil =>
          rw [tokensOf, List.cons_append, foldlM_step rfl]
          exact foldlM_step rfl ts
      | cons v items =>
          have hfirst := (ih v List.mem_cons_self).valueOrClose
          have hlater := foldlM_items (fun w hw => ih w (List.mem_cons_of_mem _ hw)) [v] frames ts
          simp only [tokensOf, List.cons_append, List.append_assoc, List.nil_append]
          rw [foldlM_step rfl, hfirst]
          exact hlater
  | @object fields hnames _ ih =>
      intro frames last ts
      cases fields with
      | nil =>
          rw [tokensOf, List.cons_append, foldlM_step rfl]
          exact foldlM_step rfl ts
      | cons field fields =>
          obtain ⟨name, v⟩ := field
          have hfirst := ih (name, v) List.mem_cons_self
          have hlater := foldlM_fields (fun f hf => ih f (List.mem_cons_of_mem _ hf)) [(name, v)]
            name frames ts
          rw [List.reverse_singleton, List.singleton_append, Fields.ofList_of_nodup hnames]
            at hlater
          simp only [tokensOf, List.cons_append, List.append_assoc, List.nil_append]
          rw [foldlM_step rfl, foldlM_step rfl, foldlM_step rfl, hfirst]
          exact hlater

/-- Reading undoes writing: a value with distinct names is told from its text, in every format with
nothing but blanks between the tokens. -/
theorem read?_write {f : Format} (hf : f.IsPlain) {v : Value} (hv : v.Distinct) :
    read? (write f v) = some v := by
  have hread := isRead hv [] .null []
  rw [List.append_nil] at hread
  rw [read?, write, String.toList_ofList, tokens_written hf, Option.bind_some, ofTokens?,
    Reading.start, hread]
  rfl

end Value

end Mockup
