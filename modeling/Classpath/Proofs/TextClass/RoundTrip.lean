import Classpath.Proofs.TextClass.Rows

/-!
# Reading back a class that was written

The text of a draft is read as the class of the draft. The proof follows the reader: a line whose
text is known takes it from one place in a class to the next, the lines of a member take it past the
member, and so on to the closing brace. The numbers of the lines only serve errors, so all lemmas
are about lines with given texts.

* `Classpath.TextClass.Draft.readMembers_member` – the lines of one member.
* `Classpath.TextClass.Draft.readMembers_members` – the lines of all members.
* `Classpath.TextClass.Draft.parse_text` – the round trip.
-/

namespace Classpath.TextClass.Draft

variable {ids : Naming} {last : Nat} {l : Line} {rest block : List Line}

/-! ### What lines are told apart by -/

/-- A text that begins as a name or a modifier does. -/
def BeginsWord (t : List Char) : Prop :=
  ∃ c tail, t = c :: tail ∧ isNameChar c = true

namespace BeginsWord

variable {t : List Char}

theorem append (h : BeginsWord t) (s : List Char) : BeginsWord (t ++ s) := by
  obtain ⟨c, tail, rfl, hc⟩ := h
  exact ⟨c, tail ++ s, rfl, hc⟩

/-- It is no annotation. -/
theorem not_at (h : BeginsWord t) : ¬ ['@'].isPrefixOf t = true := by
  obtain ⟨c, tail, rfl, hc⟩ := h
  have hne : '@' ≠ c := by
    rintro rfl
    rw [isNameChar_of_mem_marks (by decide)] at hc
    cases hc
  simpa [List.isPrefixOf] using hne

theorem ne_brace (h : BeginsWord t) : t ≠ ['}'] := by
  rintro rfl
  obtain ⟨c, tail, heq, hc⟩ := h
  obtain ⟨rfl, -⟩ := List.cons.inj heq
  rw [isNameChar_of_mem_marks (by decide)] at hc
  cases hc

end BeginsWord

theorem IsWord.beginsWord {t : List Char} (h : IsWord t) : BeginsWord t := by
  obtain ⟨c, tail, rfl⟩ := List.exists_cons_of_ne_nil h.1
  exact ⟨c, tail, rfl, List.all_eq_true.mp h.2 c (by simp)⟩

theorem beginsWord_intercalate {t : List Char} (h : IsWord t) (ts : List (List Char)) :
    BeginsWord ([' '].intercalate (t :: ts)) := by
  rcases ts with _ | ⟨u, us⟩
  · simpa using h.beginsWord
  · rw [List.intercalate_cons_cons, List.append_assoc]
    exact h.beginsWord.append _

theorem beginsWord_declarationText (modifiers : List Modifier) (type name : Identifier) :
    BeginsWord (declarationText modifiers type name) := by
  rcases modifiers with _ | ⟨m, modifiers⟩
  · exact beginsWord_intercalate type.isWord _
  · exact beginsWord_intercalate m.isWord _

theorem beginsWord_headerText (d : Class) : BeginsWord d.headerText := by
  rw [Class.headerText]
  rcases d.modifiers with _ | ⟨m, modifiers⟩
  · exact beginsWord_intercalate (isWord_label d.kind) _
  · exact beginsWord_intercalate m.isWord _

theorem beginsWord_signature (s : Signature) : BeginsWord s.text :=
  (beginsWord_declarationText s.modifiers s.result s.name).append _

/-- Another character at the end is no semicolon. -/
theorem isSuffixOf?_append_of_ne {c d : Char} (h : c ≠ d) (t : List Char) :
    [d].isSuffixOf? (t ++ [c]) = none := by
  refine isSuffixOf?_eq_none fun hsuffix => h ?_
  simpa using singleton_suffix_iff.mp hsuffix

/-- An opening brace at the end of a line is split off. -/
theorem splitBrace_append {t : List Char} (ht : Tight t) :
    splitBrace (t ++ " \x7b".toList) = (t, true) := by
  have hopen : t ++ " \x7b".toList = (t ++ [' ']) ++ ['{'] := by simp
  rw [splitBrace, hopen, isSuffixOf?_append]
  simp only [ht.trimEnd_append_space]

/-! ### Annotations -/

theorem at_usage (m : Usage) : ['@'].isPrefixOf m.text = true := by
  simp [Usage.text, List.isPrefixOf]

/-- Annotations before a member are collected. -/
theorem readMembers_annotations (annotations : List Usage)
    (as : List (AnnotationUse ClassType))
    (hblock : block.map (·.text) = annotations.map (·.text)) :
    readMembers ids last (.members as) (block ++ rest) =
      readMembers ids last (.members (as ++ annotations.map (·.info))) rest := by
  induction annotations generalizing as block with
  | nil =>
    obtain rfl : block = [] := by simpa using hblock
    simp
  | cons m annotations ih =>
    obtain ⟨l, block, rfl, hl, hblock⟩ := List.map_eq_cons_iff.mp hblock
    have hcheck : l.check (annotationLine ids l.text) = .ok m.info := by
      rw [hl, annotationLine_text]
      rfl
    rw [List.cons_append, readMembers, hl, if_pos (at_usage m), ← hl, hcheck]
    exact (ih (as ++ [m.info]) hblock).trans (by simp)

/-- Annotations before a class are collected, up to the first other line. -/
theorem readAnnotations_annotations (annotations : List Usage)
    (hblock : block.map (·.text) = annotations.map (·.text)) (hl : BeginsWord l.text) :
    readAnnotations ids (block ++ l :: rest) = .ok (annotations.map (·.info), l :: rest) := by
  induction annotations generalizing block with
  | nil =>
    obtain rfl : block = [] := by simpa using hblock
    rw [List.nil_append, readAnnotations, if_neg hl.not_at]
    rfl
  | cons m annotations ih =>
    obtain ⟨l', block, rfl, hl', hblock⟩ := List.map_eq_cons_iff.mp hblock
    have hcheck : l'.check (annotationLine ids l'.text) = .ok m.info := by
      rw [hl', annotationLine_text]
      rfl
    rw [List.cons_append, readAnnotations, hl', if_pos (at_usage m), ← hl', hcheck,
      ih hblock]
    rfl

/-! ### Bodies -/

/-- A statement is kept without its semicolon. -/
theorem statement_line (s : Statement) : statement s.line = String.ofList s.text := by
  rw [statement, Statement.line]
  rcases s.terminated with _ | _
  · have hnone : [';'].isSuffixOf? s.text = none :=
      isSuffixOf?_eq_none fun hsuffix => s.unterminated (singleton_suffix_iff.mp hsuffix)
    simp only [Bool.false_eq_true, if_false, List.append_nil, hnone, Option.getD_none,
      trimEnd_of_last s.tight.last]
  · simp only [if_true, isSuffixOf?_append, Option.getD_some, trimEnd_of_last s.tight.last]

theorem Statement.line_ne_brace (s : Statement) : s.line ≠ ['}'] := by
  rw [Statement.line]
  rcases s.terminated with _ | _
  · simpa using s.not_end
  · intro heq
    have hlast := congrArg List.getLast? heq
    simp at hlast

/-- The statements of a body are collected, the last one first. -/
theorem readMembers_statements (m : MethodInfo) (statements : List Statement) (read : List String)
    (hblock : block.map (·.text) = statements.map (·.line)) :
    readMembers ids last (.body m read) (block ++ rest) =
      readMembers ids last
        (.body m ((statements.map fun s => String.ofList s.text).reverse ++ read)) rest := by
  induction statements generalizing read block with
  | nil =>
    obtain rfl : block = [] := by simpa using hblock
    rfl
  | cons s statements ih =>
    obtain ⟨l, block, rfl, hl, hblock⟩ := List.map_eq_cons_iff.mp hblock
    rw [List.cons_append, readMembers, hl, if_neg s.line_ne_brace, statement_line,
      ih (String.ofList s.text :: read) hblock]
    simp

/-! ### Members -/

/-- The reader is at the same place after a signature, whichever line its brace stands on. -/
theorem readMembers_opening (as : List (AnnotationUse ClassType)) (s : Signature) (ownLine : Bool)
    (hblock : block.map (·.text) = (opening ownLine ⟨1, s.text⟩).map (·.text)) :
    readMembers ids last (.members as) (block ++ rest) =
      readMembers ids last (.body { s.method with annotations := as } []) rest := by
  have hmethod : method ids s.text = .ok s.method :=
    (congrArg (method ids) (List.append_nil s.text).symm).trans (method_text ids s none)
  obtain ⟨before, hbefore⟩ : ∃ before, s.text = before ++ [')'] :=
    ⟨declarationText s.modifiers s.result s.name ++ '(' :: commas (s.parameters.map (·.text)),
      by simp [Signature.text]⟩
  rcases ownLine with _ | _
  -- the brace ends the line of the signature
  · obtain ⟨l, block, rfl, hl, hblock⟩ := List.map_eq_cons_iff.mp hblock
    obtain rfl : block = [] := by simpa using hblock
    have hbegins : BeginsWord l.text := by
      rw [hl]
      exact (beginsWord_signature s).append " \x7b".toList
    have hsplit : splitBrace l.text = (s.text, true) := by
      rw [hl]
      exact splitBrace_append s.tight
    have hsemicolon : [';'].isSuffixOf? l.text = none := by
      have hend : l.text = (s.text ++ [' ']) ++ ['{'] := by simp [hl]
      rw [hend]
      exact isSuffixOf?_append_of_ne (by decide) _
    have hbegin : l.check (beginMethod ids as l.text) =
        .ok (.body { s.method with annotations := as } []) := by
      rw [beginMethod, hsplit]
      simp only [hmethod]
      rfl
    rw [List.singleton_append, readMembers, if_neg hbegins.not_at,
      if_neg hbegins.ne_brace, hsemicolon]
    simp only [hbegin]
    rfl
  -- the brace has a line of its own
  · obtain ⟨l, block, rfl, hl, hblock⟩ := List.map_eq_cons_iff.mp hblock
    obtain ⟨l', block, rfl, hl', hblock⟩ := List.map_eq_cons_iff.mp hblock
    obtain rfl : block = [] := by simpa using hblock
    have hbegins : BeginsWord l.text := by
      rw [hl]
      exact beginsWord_signature s
    have hsplit : splitBrace l.text = (s.text, false) := by
      rw [splitBrace, hl, hbefore, isSuffixOf?_append_of_ne (by decide)]
    have hsemicolon : [';'].isSuffixOf? l.text = none := by
      rw [hl, hbefore]
      exact isSuffixOf?_append_of_ne (by decide) _
    have hbegin : l.check (beginMethod ids as l.text) =
        .ok (.opening { s.method with annotations := as }) := by
      rw [beginMethod, hsplit]
      simp only [hmethod]
      rfl
    rw [List.cons_append, List.singleton_append, readMembers, if_neg hbegins.not_at,
      if_neg hbegins.ne_brace, hsemicolon]
    simp only [hbegin]
    exact (readMembers.eq_def ..).trans (if_pos hl')

/-- A line with a semicolon at its end is a member without a body. -/
theorem readMembers_bodyless {as : List (AnnotationUse ClassType)} {t : List Char}
    {m : TextClass.Member} {ms : List TextClass.Member} {after : List Line}
    (hl : l.text = t ++ [';']) (hbegins : BeginsWord t) (hm : bodyless ids as t = .ok m)
    (hrest : readMembers ids last (.members []) rest = .ok (ms, after)) :
    readMembers ids last (.members as) (l :: rest) = .ok (m :: ms, after) := by
  have hword : BeginsWord l.text := by
    rw [hl]
    exact hbegins.append [';']
  have hcheck : l.check (bodyless ids as t) = .ok m := by
    rw [hm]
    rfl
  rw [readMembers, if_neg hword.not_at, if_neg hword.ne_brace, hl, isSuffixOf?_append]
  simp only [hcheck, hrest]
  rfl

/-- **The lines of a member are read as the member.** -/
theorem readMembers_member (m : Member) {ms : List TextClass.Member} {after : List Line}
    (hblock : block.map (·.text) = m.rows.map (·.text))
    (hrest : readMembers ids last (.members []) rest = .ok (ms, after)) :
    readMembers ids last (.members []) (block ++ rest) = .ok (m.info :: ms, after) := by
  cases m with
  | field annotations modifiers type name =>
    rw [Member.rows, List.map_append, List.map_map] at hblock
    obtain ⟨before, block, rfl, hbefore, hblock⟩ := List.map_eq_append_iff.mp hblock
    obtain ⟨l, block, rfl, hl, hblock⟩ := List.map_eq_cons_iff.mp hblock
    obtain rfl : block = [] := by simpa using hblock
    have hparen : (declarationText modifiers type name).contains '(' = false := by
      simpa using not_mem_declarationText (c := '(') modifiers type name (by decide)
        (isNameChar_of_mem_marks (by decide))
    have hbodyless : bodyless ids (annotations.map (·.info)) (declarationText modifiers type name) =
        .ok (Member.field annotations modifiers type name).info := by
      rw [bodyless, hparen]
      simp only [Bool.false_eq_true, if_false, field_text]
      rfl
    rw [List.append_assoc, readMembers_annotations annotations [] hbefore]
    exact readMembers_bodyless hl (beginsWord_declarationText modifiers type name) hbodyless hrest
  | bodyless annotations signature default =>
    rw [Member.rows, List.map_append, List.map_map] at hblock
    obtain ⟨before, block, rfl, hbefore, hblock⟩ := List.map_eq_append_iff.mp hblock
    obtain ⟨l, block, rfl, hl, hblock⟩ := List.map_eq_cons_iff.mp hblock
    obtain rfl : block = [] := by simpa using hblock
    have hparen : (signature.text ++ Member.defaultText default).contains '(' = true := by
      simp [Signature.text]
    have hbodyless : TextClass.bodyless ids (annotations.map (·.info))
        (signature.text ++ Member.defaultText default) =
        .ok (Member.bodyless annotations signature default).info := by
      rw [TextClass.bodyless, hparen]
      simp only [if_true, method_text]
      rfl
    rw [List.append_assoc, readMembers_annotations annotations [] hbefore]
    exact readMembers_bodyless hl ((beginsWord_signature signature).append _) hbodyless hrest
  | bodied annotations signature ownLine statements =>
    rw [Member.rows, List.map_append, List.map_append, List.map_append, List.map_map,
      List.map_map] at hblock
    obtain ⟨block, closing, rfl, hblock, hclosing⟩ := List.map_eq_append_iff.mp hblock
    obtain ⟨block, body, rfl, hblock, hbody⟩ := List.map_eq_append_iff.mp hblock
    obtain ⟨before, opened, rfl, hbefore, hopened⟩ := List.map_eq_append_iff.mp hblock
    obtain ⟨l, closing, rfl, hl, hclosing⟩ := List.map_eq_cons_iff.mp hclosing
    obtain rfl : closing = [] := by simpa using hclosing
    simp only [List.append_assoc]
    rw [readMembers_annotations annotations [] hbefore, readMembers_opening _ _ _ hopened,
      readMembers_statements _ statements [] hbody, List.singleton_append, readMembers, if_pos hl]
    simp only [hrest, List.append_nil, List.reverse_reverse]
    rfl

/-- **The lines of members are read as the members**, in their order. -/
theorem readMembers_members (members : List Member) {ms : List TextClass.Member} {after : List Line}
    (hblock : block.map (·.text) = members.flatMap (·.rows.map (·.text)))
    (hrest : readMembers ids last (.members []) rest = .ok (ms, after)) :
    readMembers ids last (.members []) (block ++ rest) =
      .ok (members.map (·.info) ++ ms, after) := by
  induction members generalizing block with
  | nil =>
    obtain rfl : block = [] := by simpa using hblock
    exact hrest
  | cons m members ih =>
    rw [List.flatMap_cons] at hblock
    obtain ⟨first, block, rfl, hfirst, hblock⟩ := List.map_eq_append_iff.mp hblock
    rw [List.append_assoc]
    exact readMembers_member m hfirst (ih hblock)

/-! ### Classes -/

/-- The reader is at the same place after a header, whichever line its brace stands on. -/
theorem exists_of_opening (d : Class)
    (hblock : block.map (·.text) = (opening d.ownLine ⟨0, d.headerText⟩).map (·.text)) :
    ∃ l ls opened, block = l :: ls ∧ BeginsWord l.text ∧
      splitBrace l.text = (d.headerText, opened) ∧
      ∀ last rest, readBrace last opened (ls ++ rest) = .ok rest := by
  rcases hown : d.ownLine with _ | _ <;> rw [hown] at hblock
  -- the brace ends the line of the header
  · obtain ⟨l, block, rfl, hl, hblock⟩ := List.map_eq_cons_iff.mp hblock
    obtain rfl : block = [] := by simpa using hblock
    have hbegins : BeginsWord l.text := by
      rw [hl]
      exact (beginsWord_headerText d).append " \x7b".toList
    have hsplit : splitBrace l.text = (d.headerText, true) := by
      rw [hl]
      exact splitBrace_append d.tight_headerText
    exact ⟨l, [], true, rfl, hbegins, hsplit, fun _ _ => rfl⟩
  -- the brace has a line of its own
  · obtain ⟨l, block, rfl, hl, hblock⟩ := List.map_eq_cons_iff.mp hblock
    obtain ⟨l', block, rfl, hl', hblock⟩ := List.map_eq_cons_iff.mp hblock
    obtain rfl : block = [] := by simpa using hblock
    have hbegins : BeginsWord l.text := by
      rw [hl]
      exact beginsWord_headerText d
    have hbrace : ['{'].isSuffixOf? d.headerText = none := by
      refine isSuffixOf?_eq_none fun hsuffix => ?_
      exact d.not_mem_headerText (c := '{') (by decide) (by decide)
        (isNameChar_of_mem_marks (by decide)) (hsuffix.subset (by simp))
    have hsplit : splitBrace l.text = (d.headerText, false) := by
      rw [splitBrace, hl, hbrace]
    exact ⟨l, [l'], false, rfl, hbegins, hsplit, fun _ _ => if_pos hl'⟩

/-- **The round trip**: the text of a draft is read as its class, which is of its kind, whatever
identifiers are made with. -/
theorem parse_text (ids : Naming) (d : Class) :
    parse ids d.text = .ok d.info ∧ d.info.kind = d.kind := by
  refine ⟨?_, d.kind_info⟩
  have hlines := d.significantLines_text
  rw [parse]
  generalize significantLines d.text.toList = ls at hlines
  rw [Class.rowTexts] at hlines
  obtain ⟨ls, closing, rfl, hlines, hclosing⟩ := List.map_eq_append_iff.mp hlines
  obtain ⟨ls, members, rfl, hlines, hmembers⟩ := List.map_eq_append_iff.mp hlines
  obtain ⟨before, opened, rfl, hbefore, hopened⟩ := List.map_eq_append_iff.mp hlines
  obtain ⟨close, closing, rfl, hclose, hclosing⟩ := List.map_eq_cons_iff.mp hclosing
  obtain rfl : closing = [] := by simpa using hclosing
  obtain ⟨l, ls, onLine, rfl, hbegins, hsplit, hbrace⟩ := exists_of_opening d hopened
  have hend : ∀ last, readMembers ids last (.members []) [close] = .ok ([], []) := by
    intro last
    rw [readMembers, hclose]
    rfl
  have hmembers : ∀ last, readMembers ids last (.members []) (members ++ [close]) =
      .ok (d.members.map (·.info), []) := by
    intro last
    simpa using readMembers_members d.members hmembers (hend last)
  have hannotations : readAnnotations ids (before ++ l :: (ls ++ (members ++ [close]))) =
      .ok (d.annotations.map (·.info), l :: (ls ++ (members ++ [close]))) :=
    readAnnotations_annotations d.annotations hbefore hbegins
  simp only [List.append_assoc, List.cons_append, parseLines, hannotations, bind, Except.bind,
    hsplit, header_text, Line.check, Except.mapError, hbrace, hmembers]
  rfl

end Classpath.TextClass.Draft
