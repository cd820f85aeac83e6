import Mathlib.Data.List.Forall2
import Mathlib.Logic.Relation
import Classpath.Proofs.TextClass.Rows

/-!
# Edits that write no code

A text can be laid out in many ways: blank lines, comments on lines of their own, blanks at the ends
of a line and a comment at the end of a line. The class that it writes depends only on what is left
of its lines without comments and blanks, so these edits leave it, and they leave the fault of a text
that writes no class, apart from the number of its line.

One case is missing. Whether two slashes begin a comment is told by the quotes before them, and one
quote is enough to keep them, also where every literal is closed. A comment behind such a line is
read as part of the line. The lines to which a comment can be added are therefore those without
quotes, and there are no others: a line with quotes can be a statement, and a statement is kept with
what was added.

Results of two texts are compared by a relation that forgets the numbers of lines; there is one lemma
for each part of the reader.

* `Classpath.TextClass.contents` – what counts of some lines.
* `Classpath.TextClass.Edit` – one edit.
* `Classpath.TextClass.Alike`, `Classpath.TextClass.parse_alike` – texts of which the same counts are
  read alike.
* `Classpath.TextClass.edits_inert` – edits are not seen, and where comments are not seen.
-/

namespace Classpath.TextClass

variable {line s a b : List Char}

/-! ### What is left of a line -/

/-- What is left of a line without comment and blanks. -/
def bareText (line : List Char) : List Char :=
  trim (stripComment line)

/-- The part of a line before its first two slashes. -/
def code (line : List Char) : List Char :=
  (cutAtWord? ['/', '/'] line).elim line Prod.fst

/-- **A line without quotes**, apart from those that stand behind two slashes. -/
def Quoteless (line : List Char) : Prop :=
  '"' ∉ code line

/-- Blanks begin no comment. -/
theorem not_mem_slashes_of_blank (h : ∀ c ∈ a, isBlank c = true) : ∀ c ∈ a, c ∉ ['/', '/'] := by
  intro d hd hslash
  obtain rfl : d = '/' := by simpa using hslash
  exact absurd (h _ hd) (by decide)

theorem quote_not_mem_of_blank (h : ∀ c ∈ a, isBlank c = true) : '"' ∉ a :=
  fun hmem => absurd (h _ hmem) (by decide)

theorem stripComment_eq (line : List Char) :
    stripComment line = if '"' ∈ code line then line else code line := by
  rw [stripComment, code]
  rcases cutAtWord? ['/', '/'] line with _ | ⟨before, after⟩
  · exact (ite_self line).symm
  · by_cases hquote : '"' ∈ before <;> simp [hquote]

/-- **Blanks at the ends of a line make no difference.** -/
theorem bareText_between (line : List Char) (ha : ∀ c ∈ a, isBlank c = true)
    (hb : ∀ c ∈ b, isBlank c = true) : bareText (a ++ line ++ b) = bareText line := by
  rw [bareText, bareText, stripComment, stripComment, cutAtWord?_between (by simp)
    (not_mem_slashes_of_blank ha) (not_mem_slashes_of_blank hb)]
  rcases cutAtWord? ['/', '/'] line with _ | ⟨before, after⟩
  · exact trim_between ha hb line
  · have hquote : (a ++ before).contains '"' = before.contains '"' := by
      have hnone := quote_not_mem_of_blank ha
      by_cases hq : '"' ∈ before <;> simp [hq, hnone]
    simp only [Option.map_some, hquote]
    split
    · exact trim_between ha hb line
    · exact trim_blank_append ha before

/-! ### Comments that are added -/

/-- **Two slashes behind blanks, and what follows them.** -/
def IsComment (s : List Char) : Prop :=
  ∃ blanks text, (∀ c ∈ blanks, isBlank c = true) ∧ s = blanks ++ (['/', '/'] ++ text)

theorem bareText_comment (h : IsComment s) : bareText s = [] := by
  obtain ⟨blanks, text, hblanks, rfl⟩ := h
  have hcut : cutAtWord? ['/', '/'] (blanks ++ (['/', '/'] ++ text)) = some (blanks, text) := by
    have hslashes : cutAtWord? ['/', '/'] (['/', '/'] ++ text) = some ([], text) :=
      cutAtWord?_start (by simp) text
    have hbetween := cutAtWord?_between (b := []) (by simp) (not_mem_slashes_of_blank hblanks)
      (by simp) (['/', '/'] ++ text)
    rw [hslashes] at hbetween
    simpa using hbetween
  have hquote : blanks.contains '"' = false := by
    simpa using quote_not_mem_of_blank hblanks
  rw [bareText, stripComment, hcut]
  simp only [hquote]
  have hnil : trim [] = [] := rfl
  rw [← hnil]
  simpa using trim_blank_append hblanks []

/-- A slash behind a text that has no two of them, and does not end with one, makes no two. -/
theorem not_isInfix_append_slash (h : ¬ ['/', '/'] <:+: s)
    (hlast : s.getLast? ≠ some '/') : ¬ ['/', '/'] <:+: s ++ ['/'] := by
  rcases List.eq_nil_or_concat s with rfl | ⟨init, last, rfl⟩
  · decide
  · rw [List.concat_eq_append] at h hlast ⊢
    have hslash : last ∉ ['/', '/'] := by
      simpa using hlast
    rw [List.append_assoc, List.singleton_append]
    refine not_isInfix_append_cons hslash (fun hmid => h ?_) (by decide)
    exact hmid.trans (List.prefix_append ..).isInfix

/-- **The part of a line before its first two slashes stays the same** when a comment is added,
apart from the blanks before the comment. -/
theorem code_append (h : IsComment s)
    (hline : s.head? = some '/' → line.getLast? ≠ some '/') :
    ∃ blanks, (∀ c ∈ blanks, isBlank c = true) ∧ code (line ++ s) = code line ++ blanks := by
  obtain ⟨blanks, text, hblanks, rfl⟩ := h
  rw [code, code]
  rcases hcut : cutAtWord? ['/', '/'] line with _ | ⟨before, after⟩
  · have hnone : cutAtWord? ['/', '/'] (line ++ blanks) = none := by
      have hbetween := cutAtWord?_between (a := []) (by simp) (by simp)
        (not_mem_slashes_of_blank hblanks) line
      rw [hcut] at hbetween
      simpa using hbetween
    have hlast : (line ++ blanks).getLast? ≠ some '/' := by
      rcases List.eq_nil_or_concat blanks with rfl | ⟨init, last, rfl⟩
      · simpa using hline (by simp)
      · have hblank := hblanks last (by simp)
        rintro hslash
        obtain rfl : last = '/' := by simpa using hslash
        exact absurd hblank (by decide)
    have hadded := cutAtWord?_append_word
      (not_isInfix_append_slash (not_isInfix_of_cutAtWord?_eq_none hnone) hlast) text
    rw [List.append_assoc] at hadded
    exact ⟨blanks, hblanks, by rw [hadded]; rfl⟩
  · rw [cutAtWord?_append_of_eq_some hcut]
    exact ⟨[], by simp, by simp⟩

/-- **A comment that is added to a line without quotes is not read.** -/
theorem Quoteless.bareText_append (hquote : Quoteless line) (h : IsComment s)
    (hline : s.head? = some '/' → line.getLast? ≠ some '/') :
    bareText (line ++ s) = bareText line := by
  obtain ⟨blanks, hblanks, hcode⟩ := code_append h hline
  have hmore : '"' ∉ code (line ++ s) := by
    rw [hcode, List.mem_append, not_or]
    exact ⟨hquote, quote_not_mem_of_blank hblanks⟩
  rw [bareText, bareText, stripComment_eq, stripComment_eq, if_neg hmore, if_neg hquote, hcode]
  exact trim_append_blank hblanks (code line)

/-- **A comment that is added to a line with quotes is kept.** -/
theorem bareText_append_of_not_quoteless (hquote : ¬ Quoteless line)
    (h : IsComment s) (hline : s.head? = some '/' → line.getLast? ≠ some '/') :
    bareText (line ++ s) = trim (line ++ s) ∧ bareText line = trim line := by
  obtain ⟨blanks, -, hcode⟩ := code_append h hline
  have hquote := not_not.mp hquote
  have hmore : '"' ∈ code (line ++ s) := by
    rw [hcode]
    exact List.mem_append_left _ hquote
  rw [bareText, bareText, stripComment_eq, stripComment_eq, if_pos hmore, if_pos hquote]
  exact ⟨rfl, rfl⟩

/-! ### Edits -/

/-- What counts of some lines. -/
def contents (ls : List (List Char)) : List (List Char) :=
  (ls.map bareText).filter (!·.isEmpty)

theorem contents_append (ls more : List (List Char)) :
    contents (ls ++ more) = contents ls ++ contents more := by
  rw [contents, List.map_append, List.filter_append]
  rfl

theorem contents_cons (line : List Char) (ls : List (List Char)) :
    contents (line :: ls) = contents [line] ++ contents ls :=
  contents_append [line] ls

theorem contents_congr {line line' : List Char} (h : bareText line = bareText line') :
    contents [line] = contents [line'] := by
  rw [contents, contents, List.map_singleton, List.map_singleton, h]

/-- A line of which nothing is left does not count. -/
theorem contents_of_eq_nil (h : bareText line = []) : contents [line] = [] := by
  rw [contents, List.map_singleton, h]
  rfl

/-- **An edit that writes no code**: on the lines of a text, of which those that may get a comment at
their end are given. -/
inductive Edit (mayEnd : List Char → Prop) : List (List Char) → List (List Char) → Prop
  /-- A line of blanks is put between lines. -/
  | blank (before after : List (List Char)) {line : List Char}
      (h : ∀ c ∈ line, isBlank c = true) : Edit mayEnd (before ++ after) (before ++ line :: after)
  /-- A comment is put on a line of its own. -/
  | comment (before after : List (List Char)) {line : List Char} (h : IsComment line) :
      Edit mayEnd (before ++ after) (before ++ line :: after)
  /-- The blanks at the ends of a line are changed. -/
  | margins (before after : List (List Char)) (line : List Char) {a b a' b' : List Char}
      (ha : ∀ c ∈ a ++ b, isBlank c = true) (ha' : ∀ c ∈ a' ++ b', isBlank c = true) :
      Edit mayEnd (before ++ (a ++ line ++ b) :: after) (before ++ (a' ++ line ++ b') :: after)
  /-- A comment is put at the end of a line, where its slashes do not follow another one. -/
  | remark (before after : List (List Char)) {line s : List Char} (hline : mayEnd line)
      (h : IsComment s) (hslash : s.head? = some '/' → line.getLast? ≠ some '/') :
      Edit mayEnd (before ++ line :: after) (before ++ (line ++ s) :: after)

/-- **Edits leave what counts**, as long as no line gets a comment that has quotes. -/
theorem Edit.contents_eq {ls ls' : List (List Char)} (h : Edit Quoteless ls ls') :
    contents ls' = contents ls := by
  have hreplace : ∀ {before after : List (List Char)} {line line' : List Char},
      bareText line' = bareText line →
      contents (before ++ line' :: after) = contents (before ++ line :: after) := by
    intro before after line line' hline
    rw [contents_append, contents_append, contents_cons line', contents_cons line,
      contents_congr hline]
  have hinsert : ∀ {before after : List (List Char)} {line : List Char}, bareText line = [] →
      contents (before ++ line :: after) = contents (before ++ after) := by
    intro before after line hline
    rw [contents_append, contents_cons, contents_of_eq_nil hline, List.nil_append, contents_append]
  cases h with
  | blank before after hblank =>
    refine hinsert ?_
    have hnil : bareText [] = [] := rfl
    rw [← hnil]
    simpa using bareText_between [] hblank (b := []) (by simp)
  | comment before after hcomment => exact hinsert (bareText_comment hcomment)
  | margins before after line ha ha' =>
    rw [List.forall_mem_append] at ha ha'
    exact hreplace
      ((bareText_between line ha'.1 ha'.2).trans (bareText_between line ha.1 ha.2).symm)
  | remark before after hline hcomment hslash =>
    exact hreplace (hline.bareText_append hcomment hslash)

/-! ### Lines of a text -/

/-- The carriage return at the end of a line is a blank. -/
theorem bareText_withoutReturn (line : List Char) :
    bareText (withoutReturn line) = bareText line := by
  rw [withoutReturn]
  rcases hend : ['\r'].isSuffixOf? line with _ | rest
  · rfl
  · rw [List.isSuffixOf?_eq_some_iff_append_eq] at hend
    rw [Option.getD_some, ← hend]
    exact (bareText_between rest (a := []) (by simp) (by simp [isBlank])).symm

/-- **What counts of a text are what counts of the pieces between its line feeds.** -/
theorem map_text_significantLines_eq (s : List Char) :
    (significantLines s).map (·.text) = contents (s.splitOn '\n') := by
  have hreturns : ∀ ls : List (List Char), contents (ls.map withoutReturn) = contents ls := by
    intro ls
    rw [contents, contents, List.map_map]
    exact congrArg _ (List.map_congr_left fun line _ => bareText_withoutReturn line)
  have hlines : (significantLines s).map (·.text) = contents (lines s) :=
    map_text_significantLines s
  rw [hlines, lines]
  rcases List.eq_nil_or_concat (s.splitOn '\n') with hnil | ⟨init, last, hpieces⟩
  · exact absurd hnil (List.splitOn_ne_nil '\n' s)
  · rw [hpieces, List.concat_eq_append, List.getLast?_concat, List.dropLast_concat, contents_append]
    rcases last with _ | ⟨c, last⟩
    · have hnil : contents [[]] = [] := contents_of_eq_nil rfl
      simpa [hnil] using hreturns init
    · simpa [contents_append] using hreturns init

/-! ### Lines that are told apart by their numbers only -/

/-- **Results that are alike**: two values that are related, or the same fault, whatever the line. -/
inductive Alike {α β : Type} (R : α → β → Prop) : Except ParseError α → Except ParseError β → Prop
  | ok {a : α} {b : β} (h : R a b) : Alike R (.ok a) (.ok b)
  | error {e e' : ParseError} (h : e.fault = e'.fault) : Alike R (.error e) (.error e')

namespace Alike

variable {α β γ δ : Type} {R : α → β → Prop} {S : γ → δ → Prop}

theorem bind {x : Except ParseError α} {y : Except ParseError β} {f : α → Except ParseError γ}
    {g : β → Except ParseError δ} (h : Alike R x y) (hmore : ∀ a b, R a b → Alike S (f a) (g b)) :
    Alike S (x >>= f) (y >>= g) := by
  cases h with
  | ok h => exact hmore _ _ h
  | error h => exact .error h

theorem check (l l' : Line) (x : Except Fault α) : Alike (· = ·) (l.check x) (l'.check x) := by
  rcases x with fault | a
  · exact .error rfl
  · exact .ok rfl

theorem mapError_eq {x y : Except ParseError α} (h : Alike (· = ·) x y) :
    x.mapError (·.fault) = y.mapError (·.fault) := by
  cases h with
  | ok h => rw [h]
  | error h => exact congrArg Except.error h

end Alike

/-- **Lines of the same texts**, in order. -/
abbrev SameTexts : List Line → List Line → Prop :=
  List.Forall₂ fun l l' => l.text = l'.text

variable {ids : Naming} {ls ls' : List Line}

theorem sameTexts_iff : SameTexts ls ls' ↔ ls.map (·.text) = ls'.map (·.text) := by
  rw [← List.forall₂_eq_eq_eq, List.forall₂_map_left_iff, List.forall₂_map_right_iff]

theorem readAnnotations_alike (h : SameTexts ls ls') :
    Alike (fun r r' => r.1 = r'.1 ∧ SameTexts r.2 r'.2) (readAnnotations ids ls)
      (readAnnotations ids ls') := by
  induction h with
  | nil => exact .ok ⟨rfl, .nil⟩
  | @cons l l' rest rest' hl hrest ih =>
    rw [readAnnotations, readAnnotations, hl]
    split_ifs
    · refine (Alike.check l l' _).bind ?_
      rintro a _ rfl
      refine ih.bind ?_
      rintro ⟨as, after⟩ ⟨_, after'⟩ ⟨rfl, hafter⟩
      exact .ok ⟨rfl, hafter⟩
    · exact .ok ⟨rfl, .cons hl hrest⟩

theorem readMembers_alike {last last' : Nat} (h : SameTexts ls ls') (place : Place) :
    Alike (fun r r' => r.1 = r'.1 ∧ SameTexts r.2 r'.2) (readMembers ids last place ls)
      (readMembers ids last' place ls') := by
  have hmember : ∀ {m : Member} {x x' : Except ParseError (List Member × List Line)},
      Alike (fun r r' => r.1 = r'.1 ∧ SameTexts r.2 r'.2) x x' →
      Alike (fun r r' => r.1 = r'.1 ∧ SameTexts r.2 r'.2)
        (x >>= fun r => Except.ok (m :: r.1, r.2)) (x' >>= fun r => Except.ok (m :: r.1, r.2)) := by
    intro m x x' hx
    refine hx.bind ?_
    rintro ⟨ms, after⟩ ⟨_, after'⟩ ⟨rfl, hafter⟩
    exact .ok ⟨rfl, hafter⟩
  induction h generalizing place with
  | nil =>
    rw [readMembers, readMembers]
    exact .error rfl
  | @cons l l' rest rest' hl hrest ih =>
    rcases place with annotations | m | ⟨m, statements⟩
    · rw [readMembers, readMembers, hl]
      split_ifs
      · refine (Alike.check l l' _).bind ?_
        rintro a _ rfl
        exact ih _
      · exact .ok ⟨rfl, hrest⟩
      · exact .error rfl
      · rcases [';'].isSuffixOf? l'.text with _ | s
        · refine (Alike.check l l' _).bind ?_
          rintro place _ rfl
          exact ih _
        · refine (Alike.check l l' _).bind ?_
          rintro m _ rfl
          exact hmember (ih _)
    · rw [readMembers, readMembers, hl]
      split_ifs
      · exact ih _
      · exact .error rfl
    · rw [readMembers, readMembers, hl]
      split_ifs
      · exact hmember (ih _)
      · exact ih _

theorem readBrace_alike {last last' : Nat} (h : SameTexts ls ls') (opened : Bool) :
    Alike SameTexts (readBrace last opened ls) (readBrace last' opened ls') := by
  unfold readBrace
  split_ifs
  · exact .ok h
  · cases h with
    | nil => exact .error rfl
    | cons hl hrest =>
      simp only [hl]
      split_ifs
      · exact .ok hrest
      · exact .error rfl

/-- **What lines write does not depend on their numbers**, nor does the fault that they have. -/
theorem parseLines_alike (ids : Naming) (h : SameTexts ls ls') :
    Alike (· = ·) (parseLines ids ls) (parseLines ids ls') := by
  rw [parseLines, parseLines]
  refine (readAnnotations_alike h).bind ?_
  rintro ⟨annotations, rest⟩ ⟨_, rest'⟩ ⟨rfl, hrest⟩
  cases hrest with
  | nil => exact .error rfl
  | @cons l l' rest rest' hl hrest =>
    simp only [hl]
    refine (Alike.check l l' _).bind ?_
    rintro c _ rfl
    refine (readBrace_alike hrest _).bind fun body body' hbody => ?_
    refine (readMembers_alike hbody _).bind ?_
    rintro ⟨members, after⟩ ⟨_, after'⟩ ⟨rfl, hafter⟩
    cases hafter with
    | nil => exact .ok rfl
    | cons => exact .error rfl

/-- **What a text writes depends on what counts of its lines only.** -/
theorem parse_alike {s s' : String}
    (h : contents (s.toList.splitOn '\n') = contents (s'.toList.splitOn '\n')) :
    Alike (· = ·) (parse ids s) (parse ids s') := by
  refine parseLines_alike ids (sameTexts_iff.mpr ?_)
  rw [map_text_significantLines_eq, map_text_significantLines_eq, h]

/-! ### What is kept of a statement -/

/-- The semicolon that ends a statement is the only thing that is taken from it. -/
theorem isPrefix_statement {p t : List Char} (h : p ++ ['/'] <+: t) :
    p ++ ['/'] <+: (statement t).toList := by
  rw [statement, String.toList_ofList]
  refine isPrefix_trimEnd (by decide) ?_
  rcases hend : [';'].isSuffixOf? t with _ | rest
  · exact h
  · rw [List.isSuffixOf?_eq_some_iff_append_eq] at hend
    refine List.prefix_of_prefix_length_le h (hend ▸ List.prefix_append rest [';']) ?_
    obtain ⟨u, rfl⟩ := h
    rcases List.eq_nil_or_concat u with rfl | ⟨init, last, rfl⟩
    · have hlast := congrArg List.getLast? hend
      simp at hlast
    · have hlength := congrArg List.length hend
      simp at hlength ⊢
      omega

theorem length_statement_le (t : List Char) : (statement t).toList.length ≤ t.length := by
  rw [statement, String.toList_ofList]
  refine (trimEnd_isPrefix _).length_le.trans ?_
  rcases hend : [';'].isSuffixOf? t with _ | rest
  · exact le_rfl
  · rw [List.isSuffixOf?_eq_some_iff_append_eq] at hend
    rw [Option.getD_some, ← hend]
    simp

/-- **A comment that is kept is part of the statement.** -/
theorem statement_append_ne (hline : trim line ≠ []) (h : IsComment s) :
    statement (trim (line ++ s)) ≠ statement (trim line) := by
  obtain ⟨a, b, ha, -, hsplit⟩ := exists_blanks_trim line
  obtain ⟨blanks, text, -, rfl⟩ := h
  obtain ⟨c, rest, hcons⟩ := List.exists_cons_of_ne_nil hline
  have hc : isBlank c = false := (tight_trim line).head c (by simp [hcons])
  have hstart : trimStart (line ++ (blanks ++ (['/', '/'] ++ text))) =
      (trim line ++ b ++ blanks ++ ['/'] ++ ['/']) ++ text := by
    conv_lhs => rw [hsplit]
    rw [trimStart, List.append_assoc, List.append_assoc a, List.dropWhile_append_of_pos ha, hcons,
      List.cons_append, List.cons_append, List.dropWhile_cons_of_neg (by simp [hc])]
    simp
  have hkept : trim line ++ b ++ blanks ++ ['/'] ++ ['/'] <+:
      (statement (trim (line ++ (blanks ++ (['/', '/'] ++ text))))).toList := by
    refine isPrefix_statement ?_
    have htrim := congrArg trimEnd hstart
    rw [← trim] at htrim
    rw [htrim]
    exact isPrefix_trimEnd (by decide) (List.prefix_append _ _)
  intro heq
  have hmore := hkept.length_le
  rw [heq] at hmore
  have hless := length_statement_le (trim line)
  simp at hmore
  omega

/-! ### A line in the body of a method -/

/-- A text of lines. -/
def ofLines (ls : List (List Char)) : String :=
  String.ofList (['\n'].intercalate ls)

/-- The lines of a text, which line feeds separate. -/
def pieces (s : String) : List (List Char) :=
  s.toList.splitOn '\n'

theorem pieces_ofLines {ls : List (List Char)} (hne : ls ≠ []) (h : ∀ line ∈ ls, '\n' ∉ line) :
    pieces (ofLines ls) = ls := by
  rw [pieces, ofLines, String.toList_ofList, List.splitOn_intercalate '\n' h hne]

/-- The lines before a body of one line. -/
def bodyStart : List (List Char) :=
  ["class A \x7b".toList, "void f() \x7b".toList]

/-- The lines after it. -/
def bodyEnd : List (List Char) :=
  [['}'], ['}']]

/-- The method between them, with a body of one statement. -/
def bodyMethod (statement : String) : MethodInfo where
  name := "f"
  descriptor := "()void"
  body := some (.statements [statement])

/-- The class with this method. -/
def bodyClass (statement : String) : ClassInfo where
  type := ⟨"A", none⟩
  flags := 0
  superclass := some ⟨"java.lang.Object", none⟩
  interfaces := ClassType.sortedSet []
  methods := [bodyMethod statement]

/-- **The parts of lines that are read one after the other.** -/
theorem parseLines_eq_ok {annotations : List (AnnotationUse ClassType)} {l : Line}
    {rest inside : List Line} {text : List Char} {opened : Bool} {c : ClassInfo}
    {members : List Member} (hannotations : readAnnotations ids ls = .ok (annotations, l :: rest))
    (htext : splitBrace l.text = (text, opened)) (hheader : header ids text = .ok c)
    (hbrace : readBrace (lastNumber ls) opened rest = .ok inside)
    (hmembers : readMembers ids (lastNumber ls) (.members []) inside = .ok (members, [])) :
    parseLines ids ls = .ok { c with
      annotations
      fields := members.filterMap Member.field?
      methods := members.filterMap Member.method? } := by
  simp only [parseLines, hannotations, bind, Except.bind, htext, hheader, Line.check,
    Except.mapError, hbrace, hmembers]
  rfl

/-- **A line in the body of a method is a statement**, if something is left of it and it is no
brace. -/
theorem parse_body (hline : '\n' ∉ line) (hne : bareText line ≠ [])
    (hbrace : bareText line ≠ ['}']) : parse ids (ofLines (bodyStart ++ line :: bodyEnd)) =
      .ok (bodyClass (statement (bareText line))) := by
  let body : List Line := [⟨3, bareText line⟩, ⟨4, ['}']⟩, ⟨5, ['}']⟩]
  let ls : List Line := ⟨1, "class A \x7b".toList⟩ :: ⟨2, "void f() \x7b".toList⟩ :: body
  have hsame : SameTexts (significantLines (ofLines (bodyStart ++ line :: bodyEnd)).toList) ls := by
    have hsingle : ∀ l ∈ bodyStart ++ line :: bodyEnd, '\n' ∉ l := by
      simp [bodyStart, bodyEnd, hline]
    have hkept : contents [line] = [bareText line] := by
      simp [contents, hne]
    have hstart : contents bodyStart = bodyStart := by decide
    have hend : contents bodyEnd = bodyEnd := by decide
    rw [sameTexts_iff, map_text_significantLines_eq, ← pieces,
      pieces_ofLines (by simp [bodyStart]) hsingle, contents_append, contents_cons, hkept,
      hstart, hend]
    rfl
  have hmembers : readMembers ids 5 (.members []) (⟨2, "void f() \x7b".toList⟩ :: body) =
      .ok ([.method (bodyMethod (statement (bareText line)))], []) := by
    have hbegin : beginMethod ids [] "void f() \x7b".toList =
        .ok (.body { bodyMethod "" with body := none } []) := rfl
    have hopened : [';'].isSuffixOf? "void f() \x7b".toList = none := by decide
    have hstatement : readMembers ids 5 (.body { bodyMethod "" with body := none } []) body =
        .ok ([.method (bodyMethod (statement (bareText line)))], []) := by
      rw [readMembers, if_neg hbrace, readMembers, if_pos rfl, readMembers, if_neg (by decide),
        if_pos rfl]
      rfl
    rw [readMembers, if_neg (by decide), if_neg (by decide)]
    simp only [hopened, hbegin]
    exact hstatement
  have hparse : parseLines ids ls = .ok (bodyClass (statement (bareText line))) := by
    have hannotations : readAnnotations ids ls = .ok ([], ls) := by
      rw [readAnnotations, if_neg (by decide)]
    have htext : splitBrace "class A \x7b".toList = ("class A".toList, true) := by decide
    have hheader : header ids "class A".toList = .ok { bodyClass "" with methods := [] } := rfl
    exact parseLines_eq_ok hannotations htext hheader rfl hmembers
  have halike := parseLines_alike ids hsame
  rw [hparse] at halike
  rw [parse]
  generalize parseLines ids (significantLines _) = x at halike
  cases halike with
  | ok h => rw [h]

/-! ### Edits are not seen -/

theorem code_isPrefix (line : List Char) : code line <+: line := by
  rw [code]
  rcases hcut : cutAtWord? ['/', '/'] line with _ | ⟨before, after⟩
  · exact List.prefix_rfl
  · have hline := eq_append_of_cutAtWord?_eq_some hcut
    rw [List.append_assoc] at hline
    exact ⟨['/', '/'] ++ after, hline.symm⟩

/-- A quote is not trimmed. -/
theorem quote_mem_trim (h : '"' ∈ s) : '"' ∈ trim s := by
  obtain ⟨a, b, ha, hb, hs⟩ := exists_blanks_trim s
  rw [hs, List.mem_append, List.mem_append] at h
  rcases h with (hmem | hmem) | hmem
  · exact absurd hmem (quote_not_mem_of_blank ha)
  · exact hmem
  · exact absurd hmem (quote_not_mem_of_blank hb)

/-- **Lines that are edited without code write the same class**, or have the same fault. -/
theorem parse_of_edits (ids : Naming) {text text' : String}
    (h : Relation.ReflTransGen (Edit Quoteless) (pieces text) (pieces text')) :
    (parse ids text').mapError (·.fault) = (parse ids text).mapError (·.fault) := by
  refine (parse_alike ?_).mapError_eq
  change contents (pieces text') = contents (pieces text)
  generalize pieces text' = ls at h
  induction h with
  | refl => rfl
  | tail _ hlast ih => exact hlast.contents_eq.trans ih

/-- **A comment at the end of a line with quotes is read**: the line can be a statement. -/
theorem exists_parse_ne (ids : Naming) (hline : '\n' ∉ line) (hs : '\n' ∉ s)
    (hcomment : IsComment s) (hslash : s.head? = some '/' → line.getLast? ≠ some '/')
    (hquote : ¬ Quoteless line) : ∃ c c', c ≠ c' ∧
      parse ids (ofLines (bodyStart ++ line :: bodyEnd)) = .ok c ∧
      parse ids (ofLines (bodyStart ++ (line ++ s) :: bodyEnd)) = .ok c' := by
  obtain ⟨hmore, hbare⟩ := bareText_append_of_not_quoteless hquote hcomment hslash
  have hmem : '"' ∈ line := (code_isPrefix line).subset (not_not.mp hquote)
  have htrim := quote_mem_trim hmem
  have htrimMore := quote_mem_trim (List.mem_append_left s hmem)
  have hne : statement (trim (line ++ s)) ≠ statement (trim line) :=
    statement_append_ne (List.ne_nil_of_mem htrim) hcomment
  refine ⟨bodyClass (statement (trim line)), bodyClass (statement (trim (line ++ s))), ?_, ?_, ?_⟩
  · intro heq
    refine hne ?_
    simpa [bodyClass, bodyMethod] using heq.symm
  · rw [← hbare] at htrim ⊢
    refine parse_body hline (List.ne_nil_of_mem htrim) fun hbrace => ?_
    rw [hbrace] at htrim
    exact absurd htrim (by decide)
  · rw [← hmore] at htrimMore ⊢
    refine parse_body (by simp [hline, hs]) (List.ne_nil_of_mem htrimMore) fun hbrace => ?_
    rw [hbrace] at htrimMore
    exact absurd htrimMore (by decide)

/-- **Edits are not seen, and which comments are seen.** Blank lines, comments on lines of their
own, blanks at the ends of lines and comments behind lines without quotes change neither the class
that a text writes nor the fault that it has. And a comment that does not come right behind a slash
can be put behind a line in every text that is accepted exactly if the line has no quotes before its
first two slashes. -/
theorem edits_inert (ids : Naming) :
    (∀ text text' : String, Relation.ReflTransGen (Edit Quoteless) (pieces text) (pieces text') →
      (parse ids text').mapError (·.fault) = (parse ids text).mapError (·.fault)) ∧
    ∀ line s : List Char, '\n' ∉ line → '\n' ∉ s → IsComment s →
      (s.head? = some '/' → line.getLast? ≠ some '/') →
      (Quoteless line ↔ ∀ (before after : List (List Char)) (text text' : String) (c : ClassInfo),
        pieces text = before ++ line :: after → pieces text' = before ++ (line ++ s) :: after →
        parse ids text = .ok c → parse ids text' = .ok c) := by
  refine ⟨fun text text' h => parse_of_edits ids h, fun line s hline hs hcomment hslash => ?_⟩
  constructor
  · intro hquote before after text text' c htext htext' hparse
    have hedit : Edit Quoteless (pieces text) (pieces text') := by
      rw [htext, htext']
      exact .remark before after hquote hcomment hslash
    have hsame := parse_of_edits ids (.single hedit)
    rw [hparse] at hsame
    rcases hparse' : parse ids text' with e | c'
    · rw [hparse'] at hsame
      cases hsame
    · rw [hparse'] at hsame
      exact congrArg Except.ok (Except.ok.inj hsame)
  · intro hkeeps
    by_contra hquote
    obtain ⟨c, c', hne, hparse, hparse'⟩ :=
      exists_parse_ne ids hline hs hcomment hslash hquote
    have hpieces : ∀ l : List Char, '\n' ∉ l → pieces (ofLines (bodyStart ++ l :: bodyEnd)) =
        bodyStart ++ l :: bodyEnd := by
      intro l hl
      exact pieces_ofLines (by simp [bodyStart]) (by simp [bodyStart, bodyEnd, hl])
    have hkept := hkeeps bodyStart bodyEnd _ _ c (hpieces line hline)
      (hpieces (line ++ s) (by simp [hline, hs])) hparse
    rw [hparse'] at hkept
    exact hne (Except.ok.inj hkept).symm

/-! ### Examples -/

/-- A class without members. -/
def plot : String :=
  ofLines ["class a.A \x7b".toList, ['}']]

/-- The same class with blanks and comments. -/
def plotWithNotes : String :=
  ofLines ["// note".toList, "  class a.A \x7b // note".toList, [], ['}']]

/-- The one comes from the other by an edit of each kind. -/
theorem edits_plot :
    Relation.ReflTransGen (Edit Quoteless) (pieces plot) (pieces plotWithNotes) := by
  have hnote : IsComment "// note".toList := ⟨[], " note".toList, by simp, rfl⟩
  have hremark : IsComment " // note".toList := ⟨[' '], " note".toList, by simp [isBlank], rfl⟩
  have hquote : Quoteless "class a.A \x7b".toList := by
    rw [Quoteless]
    decide
  rw [plot, plotWithNotes, pieces_ofLines (by simp) (by decide),
    pieces_ofLines (by simp) (by decide)]
  refine .head (.comment [] _ hnote) ?_
  refine .head (.remark ["// note".toList] [['}']] hquote hremark (by decide)) ?_
  refine .head (@Edit.margins Quoteless ["// note".toList] [['}']] "class a.A \x7b // note".toList
    [] [] "  ".toList [] (by simp) (by simp [isBlank])) ?_
  exact .single (.blank ["// note".toList, "  class a.A \x7b // note".toList] [['}']] (by simp))

/-- The edits of the class without members are not seen; a comment behind a call with a string
is. -/
theorem edits_inert_plot :
    Relation.ReflTransGen (Edit Quoteless) (pieces plot) (pieces plotWithNotes) ∧
    (parse .plain plotWithNotes).mapError (·.fault) = (parse .plain plot).mapError (·.fault) ∧
    IsComment " // note".toList ∧ ¬ Quoteless "f(\"x\");".toList ∧
    ¬ ∀ (before after : List (List Char)) (text text' : String) (c : ClassInfo),
      pieces text = before ++ "f(\"x\");".toList :: after →
      pieces text' = before ++ ("f(\"x\");".toList ++ " // note".toList) :: after →
      parse .plain text = .ok c → parse .plain text' = .ok c := by
  have hremark : IsComment " // note".toList := ⟨[' '], " note".toList, by simp [isBlank], rfl⟩
  have hquote : ¬ Quoteless "f(\"x\");".toList := by
    rw [Quoteless]
    decide
  refine ⟨edits_plot, (edits_inert .plain).1 plot plotWithNotes edits_plot, hremark, hquote, ?_⟩
  exact (not_congr ((edits_inert .plain).2 "f(\"x\");".toList " // note".toList (by decide)
    (by decide) hremark (by decide))).mp hquote

/-- Whether string literals are closed at the end of a text, which starts in a literal or not.
A character behind a backslash does not end a literal, and two slashes outside of literals end what
is looked at. -/
def closes : (inside : Bool) → List Char → Bool
  | inside, [] => !inside
  | true, '\\' :: _ :: rest => closes true rest
  | true, c :: rest => closes (c != '"') rest
  | false, '/' :: '/' :: _ => true
  | false, c :: rest => closes (c == '"') rest

/-- **A line whose string literals are all closed.** -/
def Closed (line : List Char) : Prop :=
  closes false line = true

/-- **Closed literals are not enough**: behind an annotation with a string, a comment is taken for
its arguments. -/
theorem edits_seen_label : ¬ ∀ (ids : Naming) (text text' : String) (c : ClassInfo),
    Relation.ReflTransGen (Edit Closed) (pieces text) (pieces text') →
    parse ids text = .ok c → parse ids text' = .ok c := by
  intro h
  let label := "@a.B(x = \"y\")".toList
  let rest := ["class a.A \x7b".toList, ['}'], []]
  have hremark : IsComment " // note".toList := ⟨[' '], " note".toList, by simp [isBlank], rfl⟩
  have hclosed : Closed label := by
    rw [Closed]
    decide
  have hedit : Edit Closed (pieces (ofLines (label :: rest)))
      (pieces (ofLines ((label ++ " // note".toList) :: rest))) := by
    rw [pieces_ofLines (by simp) (by decide), pieces_ofLines (by simp) (by decide)]
    exact .remark [] rest hclosed hremark (by decide)
  have hok : (parse .plain (ofLines (label :: rest))).isOk = true := by decide
  have herror : (parse .plain (ofLines ((label ++ " // note".toList) :: rest))).isOk = false := by
    decide
  obtain ⟨c, hparse⟩ : ∃ c, parse .plain (ofLines (label :: rest)) = .ok c := by
    rcases hresult : parse .plain (ofLines (label :: rest)) with e | c
    · rw [hresult] at hok
      cases hok
    · exact ⟨c, rfl⟩
  rw [h .plain _ _ c (.single hedit) hparse] at herror
  cases herror

end Classpath.TextClass
