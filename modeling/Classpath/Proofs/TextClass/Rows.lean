import Classpath.Proofs.TextClass.Header

/-!
# Rows that count

Every row of a draft is one line of its text, from which neither trimming nor the removal of
comments takes anything but the indentation. So the lines that count are the rows that are not
empty.

* `Classpath.TextClass.counted` – the lines that count among some lines, and
  `Classpath.TextClass.map_text_significantLines` those of a text, without their numbers.
* `Classpath.TextClass.Draft.Kept`, `Classpath.TextClass.Draft.Counted` – texts of rows that are found
  again.
* `Classpath.TextClass.Draft.Class.significantLines_text` – the lines that count in its text.
-/

namespace Classpath.TextClass

/-- The lines that count among some lines, of which the first has the number `n`. -/
def counted (n : Nat) (ls : List (List Char)) : List Line :=
  (ls.zipIdx n).filterMap fun (line, number) =>
    let text := trim (stripComment line)
    if text.isEmpty then none else some ⟨number, text⟩

section Counted

variable {n : Nat} {line : List Char} {ls : List (List Char)}

theorem counted_cons_of_eq_nil (h : trim (stripComment line) = []) :
    counted n (line :: ls) = counted (n + 1) ls := by
  rw [counted, List.zipIdx_cons, List.filterMap_cons_none (by simp [h])]
  rfl

theorem counted_cons_of_ne_nil (h : trim (stripComment line) ≠ []) :
    counted n (line :: ls) = ⟨n, trim (stripComment line)⟩ :: counted (n + 1) ls := by
  rw [counted, List.zipIdx_cons,
    List.filterMap_cons_some (b := ⟨n, trim (stripComment line)⟩) (by simp [h])]
  rfl

theorem counted_append (n : Nat) (ls more : List (List Char)) :
    counted n (ls ++ more) = counted n ls ++ counted (n + ls.length) more := by
  rw [counted, List.zipIdx_append, List.filterMap_append]
  rfl

/-- The number that the first line has takes no part in what counts. -/
theorem map_text_counted (n : Nat) (ls : List (List Char)) :
    (counted n ls).map (·.text) =
      (ls.map fun line => trim (stripComment line)).filter (!·.isEmpty) := by
  induction ls generalizing n with
  | nil => rfl
  | cons line ls ih =>
    rw [List.map_cons]
    by_cases hline : trim (stripComment line) = []
    · rw [counted_cons_of_eq_nil hline, ih, List.filter_cons_of_neg (by simp [hline])]
    · rw [counted_cons_of_ne_nil hline, List.map_cons, ih,
        List.filter_cons_of_pos (by simp [hline])]

end Counted

/-- **The lines that count, without their numbers.** -/
theorem map_text_significantLines (s : List Char) :
    (significantLines s).map (·.text) =
      ((lines s).map fun line => trim (stripComment line)).filter (!·.isEmpty) :=
  map_text_counted 1 (lines s)

namespace Draft

variable {a b t : List Char}

/-! ### Texts without line ends and comments -/

/-- **A text on one line, in which every slash comes after a quote.** -/
structure Clean (t : List Char) : Prop where
  single : '\n' ∉ t
  guarded : Guarded t

theorem clean_of_not_mem (hsingle : '\n' ∉ t) (hslash : '/' ∉ t) : Clean t :=
  ⟨hsingle, guarded_of_not_mem hslash⟩

theorem Clean.append (ha : Clean a) (hb : Clean b) : Clean (a ++ b) where
  single := by simp [ha.single, hb.single]
  guarded := ha.guarded.append hb.guarded

theorem Clean.cons {c : Char} (hsingle : '\n' ≠ c) (hslash : c ≠ '/') (ht : Clean t) :
    Clean (c :: t) where
  single := by simp [hsingle, ht.single]
  guarded := .inr ⟨hslash, ht.guarded⟩

theorem Clean.intercalate {sep : List Char} {ts : List (List Char)} (hsep : Clean sep)
    (h : ∀ t ∈ ts, Clean t) : Clean (sep.intercalate ts) where
  single := not_mem_intercalate hsep.single fun t ht => (h t ht).single
  guarded := hsep.guarded.intercalate fun t ht => (h t ht).guarded

theorem Fits.clean (h : Fits t) : Clean t :=
  ⟨h.single, h.guarded⟩

theorem IsWord.clean (h : IsWord t) : Clean t :=
  clean_of_not_mem (h.not_mem (isNameChar_of_mem_marks (by decide)))
    (h.not_mem (isNameChar_of_mem_marks (by decide)))

theorem Clean.commas {ts : List (List Char)} (h : ∀ t ∈ ts, Clean t) : Clean (commas ts) :=
  Clean.intercalate (clean_of_not_mem (by decide) (by decide)) h

theorem clean_names (l : List Identifier) : Clean (commas (l.map (·.text))) := by
  refine Clean.commas fun t ht => ?_
  obtain ⟨i, -, rfl⟩ := List.mem_map.mp ht
  exact i.isWord.clean

/-! ### Kept rows -/

/-- **A text that stays as it is when its line is read**: it takes one line, has no blanks at its
ends and nothing that is taken for a comment. -/
structure Kept (t : List Char) : Prop where
  single : '\n' ∉ t
  tight : Tight t
  uncommented : stripComment t = t

/-- **A text whose line counts.** -/
structure Counted (t : List Char) : Prop extends Kept t where
  nonempty : t ≠ []

theorem kept_nil : Kept [] where
  single := by simp
  tight := tight_of_forall (by simp)
  uncommented := rfl

theorem Clean.counted (h : Clean t) (ht : Tight t) (hne : t ≠ []) : Counted t where
  single := h.single
  tight := ht
  uncommented := stripComment_of_guarded h.guarded
  nonempty := hne

namespace Row

variable {r : Row}

theorem trim_stripComment_line (h : Kept r.text) : trim (stripComment r.line) = r.text := by
  have hspaces : ∀ c ∈ List.replicate (4 * r.depth) ' ', isBlank c = true := by
    intro c hc
    rw [List.eq_of_mem_replicate hc]
    decide
  rw [Row.line, stripComment_indented h.uncommented]
  simpa using trim_append (b := []) hspaces h.tight (by simp)

/-- A row is a whole line, which no carriage return ends. -/
theorem line_ends (h : Kept r.text) : '\n' ∉ r.line ∧ r.line.getLast? ≠ some '\r' := by
  refine ⟨?_, fun hreturn => ?_⟩
  · rw [Row.line, List.mem_append, not_or]
    exact ⟨fun hmem => absurd (List.eq_of_mem_replicate hmem) (by decide), h.single⟩
  · rcases hempty : r.text with _ | ⟨c, rest⟩
    · rw [Row.line, hempty, List.append_nil] at hreturn
      exact absurd (List.eq_of_mem_replicate (List.mem_of_getLast? hreturn)) (by decide)
    · have hne : r.text ≠ [] := by simp [hempty]
      rw [Row.line, List.getLast?_append_of_ne_nil _ hne] at hreturn
      exact absurd (h.tight.last _ hreturn) (by decide)

/-- **The lines that count are the rows that are not empty.** -/
theorem significantLines_rows {rows : List Row} (h : ∀ r ∈ rows, Kept r.text) :
    (significantLines (rows.flatMap (·.line ++ ['\n']))).map (·.text) =
      (rows.map (·.text)).filter (!·.isEmpty) := by
  have hlines : lines (rows.flatMap (·.line ++ ['\n'])) = rows.map (·.line) := by
    have hmap : rows.flatMap (·.line ++ ['\n']) = (rows.map (·.line)).flatMap (· ++ ['\n']) := by
      rw [List.flatMap_map]
    rw [hmap, lines_flatMap]
    intro line hline
    obtain ⟨r, hr, rfl⟩ := List.mem_map.mp hline
    exact line_ends (h r hr)
  rw [map_text_significantLines, hlines, List.map_map]
  exact congrArg (List.filter (!·.isEmpty))
    (List.map_congr_left fun r hr => trim_stripComment_line (h r hr))

end Row

/-! ### The rows of a draft -/

/-- A text that something begins which begins with no blank, and that no blank ends. -/
theorem tight_end {c : Char} (ha : Tight a) (hne : a ≠ []) (hc : isBlank c = false) :
    Tight (a ++ b ++ [c]) :=
  ha.append (tight_of_forall (by simpa using hc)) hne (by simp)

/-- A text with a mark at its end, which is neither a blank nor a slash. -/
theorem Clean.counted_end {c : Char} (h : Clean (a ++ b)) (ht : Tight a) (hne : a ≠ [])
    (hc : Clean [c]) (hblank : isBlank c = false) : Counted (a ++ b ++ [c]) :=
  (h.append hc).counted (tight_end ht hne hblank) (by simp)

theorem counted_usage (m : Usage) : Counted m.text := by
  have hname : Clean m.type.text := m.type.isWord.clean
  have hat : Tight ['@'] := tight_of_all (by decide)
  rw [Usage.text]
  rcases m.elements.isEmpty with _ | _
  · let args := commas (m.elements.map Usage.elementText)
    have hargs : Clean args := by
      refine Clean.commas fun t ht => ?_
      obtain ⟨e, -, rfl⟩ := List.mem_map.mp ht
      exact (fits_elementText e).clean
    have hclean : Clean (['@'] ++ (m.type.text ++ '(' :: args)) :=
      (hname.append (hargs.cons (by decide) (by decide))).cons (by decide) (by decide)
    simpa [args] using hclean.counted_end (c := ')') hat (by simp)
      (clean_of_not_mem (by decide) (by decide)) (by decide)
  · have htight : Tight ('@' :: m.type.text) :=
      hat.append (t := []) m.type.tight (by simp) m.type.ne_nil
    simpa using (hname.cons (by decide) (by decide)).counted htight (by simp)

theorem clean_declarationText (modifiers : List Modifier) (type name : Identifier) :
    Clean (declarationText modifiers type name) :=
  Clean.intercalate (clean_of_not_mem (by decide) (by decide)) fun t ht =>
    (isWord_declaration modifiers type name t ht).clean

namespace Signature

variable (s : Signature)

theorem clean : Clean s.text :=
  (clean_declarationText ..).append <|
    ((clean_names s.parameters).append (clean_of_not_mem (by decide) (by decide))).cons (by decide)
      (by decide)

theorem text_ne_nil : s.text ≠ [] := by
  simp [Signature.text]

theorem tight : Tight s.text := by
  simpa [Signature.text] using tight_end (c := ')') (b := '(' :: commas (s.parameters.map (·.text)))
    (tight_declarationText s.modifiers s.result s.name) (declarationText_ne_nil _ _ _) (by decide)

end Signature

theorem clean_defaultText (default : Option Value) : Clean (Member.defaultText default) := by
  rcases default with _ | v
  · exact clean_of_not_mem (by decide) (by decide)
  · exact (clean_of_not_mem (by decide) (by decide)).append v.fits.clean

theorem Statement.counted (s : Statement) : Counted s.line := by
  rcases hend : s.terminated with _ | _
  · have hcounted : Counted s.text :=
      ⟨⟨s.single, s.tight, stripComment_of_not_isInfix s.uncommented⟩, s.nonempty⟩
    simpa [Statement.line, hend] using hcounted
  · have hcomment : ¬ ['/', '/'] <:+: s.text ++ ';' :: [] :=
      not_isInfix_append_cons (by decide) s.uncommented (by decide)
    have htight : Tight (s.text ++ [';']) := by
      simpa using tight_end (b := []) s.tight s.nonempty (c := ';') (by decide)
    have hcounted : Counted (s.text ++ [';']) :=
      ⟨⟨by simpa using s.single, htight, stripComment_of_not_isInfix hcomment⟩, by simp⟩
    simpa [Statement.line, hend] using hcounted

theorem counted_brace {c : Char} (hc : c = '{' ∨ c = '}') : Counted [c] := by
  rcases hc with rfl | rfl <;>
    exact Clean.counted (clean_of_not_mem (by decide) (by decide)) (tight_of_all (by decide))
      (by decide)

theorem counted_of_mem_opening (ownLine : Bool) (r : Row) (h : Clean r.text) (ht : Tight r.text)
    (hne : r.text ≠ []) : ∀ row ∈ opening ownLine r, Counted row.text := by
  intro row hrow
  rcases ownLine with _ | _
  · have hspace : Clean (r.text ++ [' ']) := h.append (clean_of_not_mem (by decide) (by decide))
    rw [List.mem_singleton.mp hrow]
    simpa using hspace.counted_end (c := '{') ht hne (clean_of_not_mem (by decide) (by decide))
      (by decide)
  · rcases List.mem_pair.mp hrow with rfl | rfl
    · exact h.counted ht hne
    · exact counted_brace (.inl rfl)

theorem counted_of_mem_annotations (depth : Nat) (l : List Usage) :
    ∀ r ∈ l.map (⟨depth, ·.text⟩ : Usage → Row), Counted r.text := by
  intro r hr
  obtain ⟨m, -, rfl⟩ := List.mem_map.mp hr
  exact counted_usage m

/-- **Every row of a member counts.** -/
theorem Member.counted_of_mem_rows (m : Member) : ∀ r ∈ m.rows, Counted r.text := by
  have hsemicolon : Clean [';'] := clean_of_not_mem (by decide) (by decide)
  cases m with
  | field annotations modifiers type name =>
    have hdeclaration : Clean (declarationText modifiers type name ++ []) := by
      simpa using clean_declarationText modifiers type name
    rw [Member.rows, List.forall_mem_append, List.forall_mem_singleton]
    refine ⟨counted_of_mem_annotations 1 annotations, ?_⟩
    simpa using hdeclaration.counted_end (tight_declarationText modifiers type name)
      (declarationText_ne_nil modifiers type name) hsemicolon (by decide)
  | bodyless annotations signature default =>
    have hsignature := signature.clean.append (clean_defaultText default)
    rw [Member.rows, List.forall_mem_append, List.forall_mem_singleton]
    exact ⟨counted_of_mem_annotations 1 annotations,
      hsignature.counted_end signature.tight signature.text_ne_nil hsemicolon (by decide)⟩
  | bodied annotations signature ownLine statements =>
    rw [Member.rows, List.forall_mem_append, List.forall_mem_append, List.forall_mem_append,
      List.forall_mem_singleton]
    refine ⟨⟨⟨counted_of_mem_annotations 1 annotations, ?_⟩, ?_⟩, counted_brace (.inr rfl)⟩
    · exact counted_of_mem_opening ownLine _ signature.clean signature.tight signature.text_ne_nil
    · intro r hr
      obtain ⟨s, -, rfl⟩ := List.mem_map.mp hr
      exact s.counted

namespace Class

variable (d : Class)

theorem clean_headerText : Clean d.headerText :=
  Clean.intercalate (clean_of_not_mem (by decide) (by decide)) <|
    d.forall_mem_pieces (fun _ h => h.clean) fun l _ => clean_names l

theorem tight_headerText : Tight d.headerText :=
  tight_intercalate <| d.forall_mem_pieces (P := fun t => t ≠ [] ∧ Tight t)
    (fun _ h => ⟨h.1, h.tight⟩) fun l hne => ⟨(spaced_names hne).nonempty, tight_names l⟩

theorem not_mem_headerText {c : Char} (hblank : c ≠ ' ') (hcomma : c ≠ ',')
    (hc : isNameChar c = false) : c ∉ d.headerText := by
  refine not_mem_intercalate (by simpa using hblank) <| d.forall_mem_pieces (P := (c ∉ ·))
    (fun _ h => h.not_mem hc) fun l _ => not_mem_intercalate (by simp [hblank, hcomma]) ?_
  intro t ht
  obtain ⟨i, -, rfl⟩ := List.mem_map.mp ht
  exact i.not_mem hc

theorem headerText_ne_nil : d.headerText ≠ [] := by
  intro hnil
  have hwords := words_headerText d
  rw [hnil] at hwords
  exact absurd hwords.symm (by simp [words])

/-- The texts of the rows that count. -/
def rowTexts : List (List Char) :=
  d.annotations.map (·.text) ++ (opening d.ownLine ⟨0, d.headerText⟩).map (·.text) ++
    d.members.flatMap (·.rows.map (·.text)) ++ [['}']]

theorem filter_map_text {rows : List Row} (h : ∀ r ∈ rows, Counted r.text) :
    (rows.map (·.text)).filter (!·.isEmpty) = rows.map (·.text) := by
  rw [List.filter_eq_self, List.forall_mem_map]
  intro r hr
  simpa using (h r hr).nonempty

/-- Of the rows of members and those between them, the rows of members count. -/
theorem filter_map_intercalate (ms : List Member) :
    (([⟨0, []⟩] : List Row).intercalate (ms.map (·.rows)) |>.map (·.text)).filter (!·.isEmpty) =
      ms.flatMap (·.rows.map (·.text)) := by
  induction ms with
  | nil => rfl
  | cons m ms ih =>
    rcases ms with _ | ⟨m', ms⟩
    · simpa using filter_map_text m.counted_of_mem_rows
    · have hempty : (([⟨0, []⟩] : List Row).map (·.text)).filter (!·.isEmpty) = [] := rfl
      rw [List.map_cons, List.map_cons, List.intercalate_cons_cons, ← List.map_cons,
        List.map_append, List.map_append, List.filter_append, List.filter_append,
        filter_map_text m.counted_of_mem_rows, hempty, List.append_nil, ih]
      conv_rhs => rw [List.flatMap_cons]

/-- **The lines that count in the text of a draft** are its rows without the empty ones. -/
theorem significantLines_text :
    (significantLines d.text.toList).map (·.text) = d.rowTexts := by
  have hannotations := counted_of_mem_annotations 0 d.annotations
  have hopening := counted_of_mem_opening d.ownLine ⟨0, d.headerText⟩ d.clean_headerText
    d.tight_headerText d.headerText_ne_nil
  have hclosing : Counted ['}'] := counted_brace (.inr rfl)
  have hkept : ∀ r ∈ d.rows, Kept r.text := by
    rw [rows, List.forall_mem_append, List.forall_mem_append, List.forall_mem_append,
      List.forall_mem_singleton]
    refine ⟨⟨⟨fun r hr => (hannotations r hr).toKept, fun r hr => (hopening r hr).toKept⟩,
      forall_mem_intercalate ?_ ?_⟩, hclosing.toKept⟩
    · rw [List.forall_mem_singleton]
      exact kept_nil
    · rw [List.forall_mem_map]
      exact fun m _ r hr => (m.counted_of_mem_rows r hr).toKept
  rw [text, String.toList_ofList, Row.significantLines_rows hkept, rows, List.map_append,
    List.map_append, List.map_append, List.filter_append, List.filter_append, List.filter_append,
    filter_map_text hannotations, filter_map_text hopening, filter_map_intercalate, List.map_map]
  rfl

end Class

end Draft

end Classpath.TextClass
