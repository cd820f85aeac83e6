import Classpath.Text
import Mathlib.Data.List.Basic
import Mathlib.Data.List.Infix
import Mathlib.Data.List.TakeWhile

/-!
# Cuts of texts that were put together

What trimming, splitting and cutting give back of a text that was put together from known pieces.
Every statement asks for what makes the cut come out right: that pieces do not begin or end with a
blank, or that the separator does not occur in the piece before it.

* `Classpath.Tight` – no blanks at either end; `Classpath.trim_append` removes those around it, and
  `Classpath.trim_between` those around any text.
* `Classpath.words_intercalate`, `Classpath.cutAt?_append`, `Classpath.cutAtLast?_append`,
  `Classpath.cutAtWord?_append` – the pieces around separators.
* `Classpath.cutAtWord?_between`, `Classpath.cutAtWord?_append_of_eq_some` – the first place of a
  word when a text goes on.
* `Classpath.lines_flatMap`, `Classpath.exists_lines_eq` – the lines of a text that was written line
  by line.
-/

namespace Classpath

variable {s t a b : List Char} {c : Char}

/-! ### Blanks -/

/-- **A text without blanks at its ends.** -/
structure Tight (s : List Char) : Prop where
  head : ∀ c ∈ s.head?, isBlank c = false
  last : ∀ c ∈ s.getLast?, isBlank c = false

theorem tight_of_forall (h : ∀ c ∈ s, isBlank c = false) : Tight s where
  head c hc := h c (List.mem_of_mem_head? hc)
  last c hc := h c (List.mem_of_mem_getLast? hc)

theorem tight_of_all (h : s.all (!isBlank ·)) : Tight s :=
  tight_of_forall fun c hc => by simpa using List.all_eq_true.mp h c hc

/-- A text between two others takes its ends from them. -/
theorem Tight.append (ha : Tight a) (hb : Tight b) (hane : a ≠ []) (hbne : b ≠ []) :
    Tight (a ++ t ++ b) where
  head c hc := by
    rw [List.append_assoc, List.head?_append_of_ne_nil _ hane] at hc
    exact ha.head c hc
  last c hc := by
    rw [List.getLast?_append_of_ne_nil _ hbne] at hc
    exact hb.last c hc

theorem trimStart_of_head (h : ∀ c ∈ s.head?, isBlank c = false) : trimStart s = s := by
  cases s with
  | nil => rfl
  | cons c rest => rw [trimStart, List.dropWhile_cons_of_neg (by simp [h c rfl])]

theorem trimEnd_of_last (h : ∀ c ∈ s.getLast?, isBlank c = false) : trimEnd s = s := by
  have hreverse : s.reverse.dropWhile isBlank = s.reverse :=
    trimStart_of_head (by simpa [List.head?_reverse] using h)
  rw [trimEnd, hreverse, List.reverse_reverse]

/-- **Blanks around a text are trimmed.** -/
theorem trim_append (ha : ∀ c ∈ a, isBlank c = true) (hs : Tight s)
    (hb : ∀ c ∈ b, isBlank c = true) : trim (a ++ s ++ b) = s := by
  have hend : trimEnd (s ++ b) = s := by
    have hreverse : (s ++ b).reverse.dropWhile isBlank = s.reverse.dropWhile isBlank := by
      rw [List.reverse_append, List.dropWhile_append_of_pos (by simpa using hb)]
    rw [trimEnd, hreverse]
    exact trimEnd_of_last hs.last
  rw [trim, trimStart, List.append_assoc, List.dropWhile_append_of_pos ha]
  cases s with
  | nil =>
    have hnil : (b ++ []).dropWhile isBlank = [] := List.dropWhile_append_of_pos hb
    rw [List.append_nil] at hnil
    rw [List.nil_append, hnil]
    rfl
  | cons c rest =>
    rw [List.cons_append, List.dropWhile_cons_of_neg (by simp [hs.head c rfl])]
    exact hend

theorem Tight.trim_eq (hs : Tight s) : trim s = s := by
  simpa using trim_append (a := []) (b := []) (by simp) hs (by simp)

theorem Tight.trim_space_cons (hs : Tight s) : trim (' ' :: s) = s := by
  simpa using trim_append (a := [' ']) (b := []) (by simp [isBlank]) hs (by simp)

theorem Tight.trim_append_space (hs : Tight s) : trim (s ++ [' ']) = s := by
  simpa using trim_append (a := []) (b := [' ']) (by simp) hs (by simp [isBlank])

theorem Tight.trimEnd_append_space (hs : Tight s) : trimEnd (s ++ [' ']) = s := by
  have hblank : isBlank ' ' = true := by decide
  rw [trimEnd, List.reverse_append, List.reverse_singleton, List.singleton_append,
    List.dropWhile_cons_of_pos hblank]
  exact trimEnd_of_last hs.last

theorem trimEnd_isPrefix (s : List Char) : trimEnd s <+: s := by
  have hsuffix : s.reverse.dropWhile isBlank <:+ s.reverse := List.dropWhile_suffix isBlank
  simpa [trimEnd] using List.reverse_prefix.mpr hsuffix

theorem trim_isInfix (s : List Char) : trim s <:+: s :=
  (trimEnd_isPrefix _).isInfix.trans (List.dropWhile_suffix isBlank).isInfix

/-- **A trimmed text has no blanks at its ends.** -/
theorem tight_trim (s : List Char) : Tight (trim s) := by
  have hhead : ∀ s : List Char, ∀ c ∈ (s.dropWhile isBlank).head?, isBlank c = false := by
    intro s c hc
    have hnot := List.head?_dropWhile_not isBlank s
    rw [Option.mem_def.mp hc] at hnot
    exact hnot
  refine ⟨fun c hc => ?_, fun c hc => ?_⟩
  · obtain ⟨rest, happend⟩ := trimEnd_isPrefix (trimStart s)
    refine hhead s c ?_
    rw [← trimStart, ← happend]
    exact List.mem_head?_append_of_mem_head? hc
  · refine hhead (trimStart s).reverse c ?_
    rw [trim, trimEnd] at hc
    rwa [List.getLast?_reverse] at hc

/-- Trimming takes blanks from both ends. -/
theorem exists_blanks_trim (s : List Char) : ∃ a b, (∀ c ∈ a, isBlank c = true) ∧
    (∀ c ∈ b, isBlank c = true) ∧ s = a ++ trim s ++ b := by
  refine ⟨s.takeWhile isBlank, ((trimStart s).reverse.takeWhile isBlank).reverse,
    fun c hc => List.mem_takeWhile_imp hc,
    fun c hc => List.mem_takeWhile_imp (List.mem_reverse.mp hc), ?_⟩
  have hend : trimEnd (trimStart s) ++ ((trimStart s).reverse.takeWhile isBlank).reverse =
      trimStart s := by
    rw [trimEnd, ← List.reverse_append, List.takeWhile_append_dropWhile, List.reverse_reverse]
  rw [List.append_assoc, trim, hend, trimStart, List.takeWhile_append_dropWhile]

/-- **Blanks around a text are not kept when it is trimmed.** -/
theorem trim_between (ha : ∀ c ∈ a, isBlank c = true) (hb : ∀ c ∈ b, isBlank c = true)
    (s : List Char) : trim (a ++ s ++ b) = trim s := by
  obtain ⟨a', b', ha', hb', hs⟩ := exists_blanks_trim s
  have hsplit : a ++ s ++ b = (a ++ a') ++ trim s ++ (b' ++ b) := by
    conv_lhs => rw [hs]
    simp only [List.append_assoc]
  rw [hsplit]
  exact trim_append (List.forall_mem_append.mpr ⟨ha, ha'⟩) (tight_trim s)
    (List.forall_mem_append.mpr ⟨hb', hb⟩)

theorem trim_blank_append (ha : ∀ c ∈ a, isBlank c = true) (s : List Char) :
    trim (a ++ s) = trim s := by
  simpa using trim_between ha (b := []) (by simp) s

theorem trim_append_blank (hb : ∀ c ∈ b, isBlank c = true) (s : List Char) :
    trim (s ++ b) = trim s := by
  simpa using trim_between (a := []) (by simp) hb s

/-- **Only the outer ends are trimmed** of what stands around a text without blanks at its ends. -/
theorem trim_around {m : List Char} (hm : Tight m) (hne : m ≠ []) (a b : List Char) :
    trim (a ++ m ++ b) = trimStart a ++ m ++ trimEnd b := by
  have hstart : trimStart (a ++ m ++ b) = trimStart a ++ m ++ b := by
    obtain ⟨c, rest, rfl⟩ := List.exists_cons_of_ne_nil hne
    have hc : isBlank c = false := hm.head c rfl
    rw [trimStart, List.append_assoc, List.dropWhile_append]
    split_ifs with hblank
    · rw [List.cons_append, List.dropWhile_cons_of_neg (by simp [hc]), trimStart,
        List.isEmpty_iff.mp hblank]
      rfl
    · rw [trimStart, List.append_assoc]
  have hend : trimEnd (trimStart a ++ m ++ b) = trimStart a ++ m ++ trimEnd b := by
    rcases List.eq_nil_or_concat m with rfl | ⟨init, c, rfl⟩
    · exact absurd rfl hne
    · have hc : isBlank c = false := hm.last c (by simp)
      rw [trimEnd, List.reverse_append, List.dropWhile_append]
      split_ifs with hblank
      · have hnil : trimEnd b = [] := by
          rw [trimEnd, List.isEmpty_iff.mp hblank, List.reverse_nil]
        rw [hnil, List.append_nil]
        exact trimEnd_of_last fun d hd => by
          simp at hd
          exact hd ▸ hc
      · rw [List.reverse_append, List.reverse_reverse, trimEnd]
  rw [trim, hstart, hend]

/-- Trimming does not reach what stands before a character that is no blank. -/
theorem isPrefix_trimEnd {p t : List Char} (hc : isBlank c = false) (h : p ++ [c] <+: t) :
    p ++ [c] <+: trimEnd t := by
  obtain ⟨u, rfl⟩ := h
  have hstop : (c :: p.reverse).dropWhile isBlank = c :: p.reverse :=
    List.dropWhile_cons_of_neg (by simp [hc])
  rw [trimEnd, List.reverse_append, List.dropWhile_append, List.reverse_append,
    List.reverse_singleton, List.singleton_append, hstop]
  split_ifs
  · simp
  · exact ⟨(u.reverse.dropWhile isBlank).reverse, by simp⟩

/-! ### Ends -/

theorem isSuffixOf?_append (suffix s : List Char) : suffix.isSuffixOf? (s ++ suffix) = some s :=
  List.isSuffixOf?_eq_some_iff_append_eq.mpr rfl

theorem isPrefixOf?_append (start s : List Char) : start.isPrefixOf? (start ++ s) = some s :=
  List.isPrefixOf?_eq_some_iff_append_eq.mpr rfl

theorem isSuffixOf?_eq_none {suffix : List Char} (h : ¬ suffix <:+ s) :
    suffix.isSuffixOf? s = none := by
  rw [Option.eq_none_iff_forall_ne_some]
  intro rest heq
  exact h ⟨rest, List.isSuffixOf?_eq_some_iff_append_eq.mp heq⟩

theorem isPrefixOf?_eq_none {start : List Char} (h : ¬ start <+: s) :
    start.isPrefixOf? s = none := by
  rw [Option.eq_none_iff_forall_ne_some]
  intro rest heq
  exact h ⟨rest, List.isPrefixOf?_eq_some_iff_append_eq.mp heq⟩

theorem singleton_suffix_iff : [c] <:+ s ↔ s.getLast? = some c := by
  rw [List.getLast?_eq_some_iff]
  exact ⟨fun ⟨rest, h⟩ => ⟨rest, h.symm⟩, fun ⟨rest, h⟩ => ⟨rest, h.symm⟩⟩

/-! ### Words -/

/-- The pieces of a text have none of the characters at which it is split. -/
theorem eq_false_of_mem_splitOnP {p : Char → Bool} {piece : List Char} (h : piece ∈ s.splitOnP p) :
    ∀ c ∈ piece, p c = false := by
  induction s generalizing piece with
  | nil =>
    rw [List.splitOnP_nil, List.mem_singleton] at h
    simp [h]
  | cons d s ih =>
    rw [List.splitOnP_cons_eq_if_modifyHead] at h
    split at h
    · rcases List.mem_cons.mp h with rfl | hrest
      · simp
      · exact ih hrest
    · rename_i hd
      obtain ⟨first, rest, hsplit⟩ := List.exists_cons_of_ne_nil (List.splitOnP_ne_nil p s)
      rw [hsplit, List.modifyHead_cons] at h
      rw [hsplit] at ih
      rcases List.mem_cons.mp h with rfl | hrest
      · exact List.forall_mem_cons.mpr ⟨by simpa using hd, ih (List.mem_cons_self ..)⟩
      · exact ih (List.mem_cons_of_mem first hrest)

theorem not_mem_of_mem_splitOn {piece : List Char} (h : piece ∈ s.splitOn c) : c ∉ piece := by
  intro hc
  have hnot := eq_false_of_mem_splitOnP h c hc
  simp at hnot

theorem words_eq_singleton (hne : s ≠ []) (h : ∀ c ∈ s, isBlank c = false) : words s = [s] := by
  rw [words, List.splitOnP_eq_singleton h, List.filter_cons_of_pos (by simpa using hne)]
  rfl

theorem words_append_space (a b : List Char) : words (a ++ ' ' :: b) = words a ++ words b := by
  rw [words, List.splitOnP_append_cons a b (by decide), List.filter_append]
  rfl

/-- **The words of texts with blanks between them.** -/
theorem words_intercalate_space (ts : List (List Char)) :
    words ([' '].intercalate ts) = ts.flatMap words := by
  induction ts with
  | nil => rfl
  | cons t ts ih =>
    cases ts with
    | nil => simp
    | cons u us =>
      rw [List.intercalate_cons_cons, List.append_assoc, List.singleton_append, words_append_space,
        ih]
      exact List.flatMap_cons.symm

/-- **Words that were joined by blanks.** -/
theorem words_intercalate {ts : List (List Char)}
    (h : ∀ t ∈ ts, t ≠ [] ∧ ∀ c ∈ t, isBlank c = false) :
    words ([' '].intercalate ts) = ts := by
  rw [words_intercalate_space]
  induction ts with
  | nil => rfl
  | cons t ts ih =>
    obtain ⟨⟨hne, ht⟩, hts⟩ := List.forall_mem_cons.mp h
    rw [List.flatMap_cons, words_eq_singleton hne ht, ih hts, List.singleton_append]

theorem forall_mem_intercalate {α : Type} {P : α → Prop} {sep : List α} {ts : List (List α)}
    (hsep : ∀ x ∈ sep, P x) (h : ∀ t ∈ ts, ∀ x ∈ t, P x) : ∀ x ∈ sep.intercalate ts, P x := by
  induction ts with
  | nil => simp
  | cons t ts ih =>
    obtain ⟨ht, hts⟩ := List.forall_mem_cons.mp h
    cases ts with
    | nil => simpa using ht
    | cons u us =>
      rw [List.intercalate_cons_cons, List.forall_mem_append, List.forall_mem_append]
      exact ⟨⟨ht, hsep⟩, ih hts⟩

/-- A text stands in what it is joined into. -/
theorem isInfix_intercalate {sep t : List Char} {ts : List (List Char)} (ht : t ∈ ts) :
    t <:+: sep.intercalate ts := by
  induction ts with
  | nil => cases ht
  | cons u us ih =>
    rcases us with _ | ⟨v, us⟩
    · rw [List.intercalate_singleton, List.mem_singleton.mp ht]
    · rw [List.intercalate_cons_cons]
      rcases List.mem_cons.mp ht with rfl | hrest
      · exact ⟨[], sep ++ sep.intercalate (v :: us), by simp⟩
      · exact (ih hrest).trans (List.suffix_append ..).isInfix

theorem mem_intercalate_of_mem {sep t : List Char} {ts : List (List Char)} (ht : t ∈ ts)
    (hc : c ∈ t) : c ∈ sep.intercalate ts :=
  (isInfix_intercalate ht).subset hc

theorem not_mem_intercalate {sep : List Char} {ts : List (List Char)} (hsep : c ∉ sep)
    (h : ∀ t ∈ ts, c ∉ t) : c ∉ sep.intercalate ts := by
  have hne : ∀ d ∈ sep.intercalate ts, d ≠ c := by
    refine forall_mem_intercalate (fun d hd => ?_) fun t ht d hd => ?_
    · exact ne_of_mem_of_not_mem hd hsep
    · exact ne_of_mem_of_not_mem hd (h t ht)
  exact fun hmem => hne c hmem rfl

theorem intercalate_append {sep : List Char} {ts us : List (List Char)} (hts : ts ≠ [])
    (hus : us ≠ []) : sep.intercalate (ts ++ us) =
      sep.intercalate ts ++ sep ++ sep.intercalate us := by
  induction ts with
  | nil => exact absurd rfl hts
  | cons t ts ih =>
    cases ts with
    | nil => rw [List.singleton_append, List.intercalate_cons_of_ne_nil hus,
        List.intercalate_singleton]
    | cons u ts =>
      rw [List.cons_append, List.intercalate_cons_of_ne_nil (by simp), ih (by simp),
        List.intercalate_cons_cons]
      simp only [List.append_assoc]

/-- Joined texts have the ends of the first and the last of them. -/
theorem tight_intercalate {sep : List Char} {ts : List (List Char)}
    (h : ∀ t ∈ ts, t ≠ [] ∧ Tight t) : Tight (sep.intercalate ts) := by
  rcases List.eq_nil_or_concat ts with rfl | ⟨init, last, rfl⟩
  · exact ⟨by simp, by simp⟩
  · rw [List.concat_eq_append] at h ⊢
    obtain ⟨hlastne, hlast⟩ := h last (by simp)
    rcases init with _ | ⟨first, rest⟩
    · simpa using hlast
    · obtain ⟨hfirstne, hfirst⟩ := h first (by simp)
      have hends : sep.intercalate (first :: rest ++ [last]) =
          sep.intercalate (first :: rest) ++ sep ++ last := by
        rw [intercalate_append (by simp) (by simp), List.intercalate_singleton]
      rw [hends]
      refine ⟨fun c hc => hfirst.head c ?_, fun c hc => hlast.last c ?_⟩
      · obtain ⟨d, tail, rfl⟩ := List.exists_cons_of_ne_nil hfirstne
        cases rest <;> simpa [List.intercalate_cons_cons] using hc
      · rwa [List.getLast?_append_of_ne_nil _ hlastne] at hc

/-! ### Cuts -/

theorem cutAt?_append (h : c ∉ a) (b : List Char) : cutAt? c (a ++ c :: b) = some (a, b) := by
  induction a with
  | nil => simp [cutAt?]
  | cons d a ih =>
    obtain ⟨hd, ha⟩ := List.ne_and_not_mem_of_not_mem_cons h
    simp [cutAt?, hd.symm, ih ha]

theorem cutAt?_eq_none (h : c ∉ s) : cutAt? c s = none := by
  induction s with
  | nil => rfl
  | cons d s ih =>
    obtain ⟨hd, hs⟩ := List.ne_and_not_mem_of_not_mem_cons h
    simp [cutAt?, hd.symm, ih hs]

theorem not_mem_of_cutAt?_eq_some (h : cutAt? c s = some (a, b)) : c ∉ a := by
  induction s generalizing a b with
  | nil => cases h
  | cons d s ih =>
    rw [cutAt?] at h
    split at h
    · obtain ⟨rfl, -⟩ := Prod.mk.inj (Option.some.inj h)
      exact List.not_mem_nil
    · rename_i hd
      obtain ⟨⟨a', b'⟩, hcut, heq⟩ := Option.map_eq_some_iff.1 h
      obtain ⟨rfl, -⟩ := Prod.mk.inj heq
      exact List.not_mem_cons_of_ne_of_not_mem (Ne.symm hd) (ih hcut)

theorem cutAtLast?_eq_none (h : c ∉ s) : cutAtLast? c s = none := by
  induction s with
  | nil => rfl
  | cons d s ih =>
    obtain ⟨hd, hs⟩ := List.ne_and_not_mem_of_not_mem_cons h
    simp [cutAtLast?, hd.symm, ih hs]

theorem cutAtLast?_append (a : List Char) (h : c ∉ b) :
    cutAtLast? c (a ++ c :: b) = some (a, b) := by
  induction a with
  | nil => simp [cutAtLast?, cutAtLast?_eq_none h]
  | cons d a ih => simp [cutAtLast?, ih]

/-- The pieces and the separator between them make up the text. -/
theorem eq_append_of_cutAtLast?_eq_some (h : cutAtLast? c s = some (a, b)) : s = a ++ c :: b := by
  induction s generalizing a with
  | nil => cases h
  | cons d s ih =>
    rw [cutAtLast?] at h
    split at h
    · rename_i before after hcut
      obtain ⟨rfl, rfl⟩ := Prod.mk.inj (Option.some.inj h)
      rw [ih hcut, List.cons_append]
    · split_ifs at h with hd
      obtain ⟨rfl, rfl⟩ := Prod.mk.inj (Option.some.inj h)
      rw [hd, List.nil_append]

section Word

variable {word : List Char}

theorem cutAtWord?_eq_none (h : ¬ word <:+: s) : cutAtWord? word s = none := by
  induction s with
  | nil =>
    have hnil : ¬ word <+: [] := fun hstart => h hstart.isInfix
    rw [cutAtWord?, isPrefixOf?_eq_none hnil]
    rfl
  | cons d s ih =>
    have hstart : ¬ word <+: d :: s := fun hstart => h hstart.isInfix
    rw [cutAtWord?, isPrefixOf?_eq_none hstart]
    simp [ih fun hmid => h (hmid.trans (List.suffix_cons d s).isInfix)]

/-- The pieces and the word between them make up the text. -/
theorem eq_append_of_cutAtWord?_eq_some (h : cutAtWord? word s = some (a, b)) :
    s = a ++ word ++ b := by
  induction s generalizing a with
  | nil =>
    obtain ⟨after, hstart, heq⟩ := Option.map_eq_some_iff.mp h
    obtain ⟨rfl, rfl⟩ := Prod.mk.inj heq
    exact (List.isPrefixOf?_eq_some_iff_append_eq.mp hstart).symm
  | cons c s ih =>
    rw [cutAtWord?] at h
    split at h
    · rename_i after hstart
      obtain ⟨rfl, rfl⟩ := Prod.mk.inj (Option.some.inj h)
      exact (List.isPrefixOf?_eq_some_iff_append_eq.mp hstart).symm
    · obtain ⟨⟨before, after⟩, hrest, heq⟩ := Option.map_eq_some_iff.mp h
      obtain ⟨rfl, rfl⟩ := Prod.mk.inj heq
      exact congrArg (c :: ·) (ih hrest)

theorem cutAtWord?_start (hne : word ≠ []) (s : List Char) :
    cutAtWord? word (word ++ s) = some ([], s) := by
  obtain ⟨d, rest, rfl⟩ := List.exists_cons_of_ne_nil hne
  have hstart := isPrefixOf?_append (d :: rest) s
  rw [List.cons_append] at hstart ⊢
  rw [cutAtWord?, hstart]

/-- A word that begins before a character that it does not have ends before it. -/
theorem isPrefix_of_append_cons (hc : c ∉ word) (h : word <+: a ++ c :: b) : word <+: a := by
  induction a generalizing word with
  | nil =>
    rcases word with _ | ⟨d, word⟩
    · exact List.prefix_rfl
    · obtain ⟨rfl, -⟩ := List.cons_prefix_cons.mp h
      simp at hc
  | cons d a ih =>
    rcases word with _ | ⟨e, word⟩
    · exact List.nil_prefix
    · obtain ⟨rfl, hrest⟩ := List.cons_prefix_cons.mp h
      exact List.cons_prefix_cons.mpr ⟨rfl, ih (List.not_mem_of_not_mem_cons hc) hrest⟩

/-- **The first place of a word comes after a text in which it does not occur**, if a character
stands between that the word does not have. -/
theorem cutAtWord?_append (hc : c ∉ word) (ha : ¬ word <:+: a) (b : List Char) :
    cutAtWord? word (a ++ c :: b) =
      (cutAtWord? word b).map fun (before, after) => (a ++ c :: before, after) := by
  induction a with
  | nil =>
    have hstart : ¬ word <+: c :: b := fun h =>
      ha (isPrefix_of_append_cons (a := []) hc h).isInfix
    rw [List.nil_append, cutAtWord?, isPrefixOf?_eq_none hstart]
    rfl
  | cons d a ih =>
    have hstart : ¬ word <+: d :: (a ++ c :: b) := fun h =>
      ha (isPrefix_of_append_cons (a := d :: a) hc h).isInfix
    have hrest : ¬ word <:+: a := fun h => ha (h.trans (List.suffix_cons d a).isInfix)
    rw [List.cons_append, cutAtWord?, isPrefixOf?_eq_none hstart]
    simp only [ih hrest, Option.map_map]
    rfl

/-- A word occurs on neither side of a character that it does not have. -/
theorem not_isInfix_append_cons (hc : c ∉ word) (ha : ¬ word <:+: a) (hb : ¬ word <:+: b) :
    ¬ word <:+: a ++ c :: b := by
  rintro ⟨before, after, h⟩
  induction a generalizing before with
  | nil =>
    rcases before with _ | ⟨d, before⟩
    · exact ha (isPrefix_of_append_cons (a := []) (b := b) hc ⟨after, by simpa using h⟩).isInfix
    · exact hb ⟨before, after, by simpa using congrArg List.tail h⟩
  | cons d a ih =>
    rcases before with _ | ⟨e, before⟩
    · exact ha (isPrefix_of_append_cons (a := d :: a) (b := b) hc ⟨after, by simpa using h⟩).isInfix
    · refine ih (fun hmid => ha (hmid.trans (List.suffix_cons d a).isInfix)) before ?_
      simpa using congrArg List.tail h

/-- A text without a word is not cut. -/
theorem not_isInfix_of_cutAtWord?_eq_none (h : cutAtWord? word s = none) : ¬ word <:+: s := by
  rintro ⟨before, after, rfl⟩
  induction before with
  | nil =>
    rcases hcons : word ++ after with _ | ⟨d, rest⟩
    · obtain ⟨rfl, rfl⟩ := List.append_eq_nil_iff.mp hcons
      cases h
    · have hstart : word.isPrefixOf? (d :: rest) = some after :=
        hcons ▸ isPrefixOf?_append word after
      rw [List.nil_append, hcons, cutAtWord?, hstart] at h
      cases h
  | cons d before ih =>
    rw [List.cons_append, List.cons_append, cutAtWord?] at h
    split at h
    · cases h
    · exact ih (Option.map_eq_none_iff.mp h)

/-- **The first place of a word stays the first one**, whatever follows. -/
theorem cutAtWord?_append_of_eq_some (h : cutAtWord? word s = some (a, b)) (t : List Char) :
    cutAtWord? word (s ++ t) = some (a, b ++ t) := by
  induction s generalizing a with
  | nil =>
    obtain ⟨after, hstart, heq⟩ := Option.map_eq_some_iff.mp h
    obtain ⟨rfl, rfl⟩ := Prod.mk.inj heq
    obtain ⟨rfl, rfl⟩ := List.append_eq_nil_iff.mp (List.isPrefixOf?_eq_some_iff_append_eq.mp hstart)
    rw [List.nil_append]
    cases t <;> rfl
  | cons d s ih =>
    rw [cutAtWord?] at h
    rw [List.cons_append, cutAtWord?]
    split at h
    · rename_i after hstart
      obtain ⟨rfl, rfl⟩ := Prod.mk.inj (Option.some.inj h)
      have happend := List.isPrefixOf?_eq_some_iff_append_eq.mp hstart
      have hmore : word.isPrefixOf? (d :: (s ++ t)) = some (after ++ t) := by
        rw [List.isPrefixOf?_eq_some_iff_append_eq, ← List.append_assoc, happend, List.cons_append]
      rw [hmore]
    · rename_i hstart
      obtain ⟨⟨before, after⟩, hrest, heq⟩ := Option.map_eq_some_iff.mp h
      obtain ⟨rfl, rfl⟩ := Prod.mk.inj heq
      -- the word fits into the first text, so it cannot begin earlier with the help of the second
      have hfits : word.length ≤ (d :: s).length := by
        have hlength := congrArg List.length (eq_append_of_cutAtWord?_eq_some hrest)
        simp only [List.length_append, List.length_cons] at hlength ⊢
        omega
      have hnone : ¬ word <+: d :: (s ++ t) := by
        intro hmore
        obtain ⟨after, happend⟩ :=
          List.prefix_of_prefix_length_le hmore (List.prefix_append (d :: s) t) hfits
        rw [← happend, isPrefixOf?_append] at hstart
        cases hstart
      rw [isPrefixOf?_eq_none hnone]
      simp only [ih hrest, Option.map_some]

/-- **A word that was put behind a text is the first one** if none ends before it does. -/
theorem cutAtWord?_append_word (h : ¬ word <:+: a ++ word.dropLast) (b : List Char) :
    cutAtWord? word (a ++ (word ++ b)) = some (a, b) := by
  have hne : word ≠ [] := by
    rintro rfl
    exact h (List.nil_infix)
  induction a with
  | nil => exact cutAtWord?_start hne b
  | cons d a ih =>
    have hstart : ¬ word <+: d :: (a ++ (word ++ b)) := by
      intro hstart
      refine h (List.IsPrefix.isInfix (List.prefix_of_prefix_length_le hstart ?_ ?_))
      · refine List.cons_prefix_cons.mpr ⟨rfl, (List.prefix_append_right_inj a).mpr ?_⟩
        exact (List.dropLast_prefix word).trans (List.prefix_append word b)
      · have hpos := List.length_pos_iff.mpr hne
        simp only [List.cons_append, List.length_cons, List.length_append, List.length_dropLast]
        omega
    have hrest : ¬ word <:+: a ++ word.dropLast := fun hmid =>
      h (hmid.trans (List.suffix_cons d _).isInfix)
    rw [List.cons_append, cutAtWord?, isPrefixOf?_eq_none hstart]
    simp only [ih hrest, Option.map_some]

/-- **A word is found where it was** after a text and before another one that have none of its
characters. -/
theorem cutAtWord?_between (hne : word ≠ []) (ha : ∀ d ∈ a, d ∉ word) (hb : ∀ d ∈ b, d ∉ word)
    (s : List Char) : cutAtWord? word (a ++ s ++ b) =
      (cutAtWord? word s).map fun (before, after) => (a ++ before, after ++ b) := by
  have hfree : ∀ {u : List Char}, (∀ d ∈ u, d ∉ word) → ¬ word <:+: u := by
    intro u hu hmid
    obtain ⟨d, rest, rfl⟩ := List.exists_cons_of_ne_nil hne
    exact hu d (hmid.subset (by simp)) (by simp)
  have hfront : ∀ t, cutAtWord? word (a ++ t) =
      (cutAtWord? word t).map fun (before, after) => (a ++ before, after) := by
    intro t
    rcases List.eq_nil_or_concat a with rfl | ⟨init, last, rfl⟩
    · simp
    · rw [List.concat_eq_append, List.forall_mem_append, List.forall_mem_singleton] at ha
      simpa using cutAtWord?_append ha.2 (hfree ha.1) t
  rw [List.append_assoc, hfront]
  rcases hcut : cutAtWord? word s with _ | ⟨before, after⟩
  · rcases b with _ | ⟨d, b⟩
    · rw [List.append_nil, hcut]
      rfl
    · obtain ⟨hd, hb⟩ := List.forall_mem_cons.mp hb
      rw [cutAtWord?_eq_none
        (not_isInfix_append_cons hd (not_isInfix_of_cutAtWord?_eq_none hcut) (hfree hb))]
      rfl
  · rw [cutAtWord?_append_of_eq_some hcut]
    rfl

end Word

/-! ### Lines -/

theorem withoutReturn_eq_self (h : s.getLast? ≠ some '\r') : withoutReturn s = s := by
  rw [withoutReturn, isSuffixOf?_eq_none fun hsuffix => h (singleton_suffix_iff.mp hsuffix)]
  rfl

theorem withoutReturn_append (s : List Char) : withoutReturn (s ++ ['\r']) = s := by
  rw [withoutReturn, isSuffixOf?_append]
  rfl

/-- A text in which each line ends with a line feed. -/
theorem lines_flatMap_eq_map {rows : List (List Char)} (h : ∀ row ∈ rows, '\n' ∉ row) :
    lines (rows.flatMap (· ++ ['\n'])) = rows.map withoutReturn := by
  have hpieces : (rows.flatMap (· ++ ['\n'])).splitOn '\n' = rows ++ [[]] := by
    induction rows with
    | nil => rfl
    | cons row rows ih =>
      obtain ⟨hrow, hrows⟩ := List.forall_mem_cons.mp h
      rw [List.flatMap_cons, List.append_assoc, List.singleton_append,
        List.splitOn_append_cons_self_of_not_mem hrow, ih hrows, List.cons_append]
  simp [lines, hpieces]

/-- **The lines of a text that was written line by line.** -/
theorem lines_flatMap {rows : List (List Char)}
    (h : ∀ row ∈ rows, '\n' ∉ row ∧ row.getLast? ≠ some '\r') :
    lines (rows.flatMap (· ++ ['\n'])) = rows := by
  rw [lines_flatMap_eq_map fun row hrow => (h row hrow).1]
  exact (List.map_congr_left fun row hrow => withoutReturn_eq_self (h row hrow).2).trans
    (List.map_id rows)

theorem withoutReturn_isPrefix (s : List Char) : withoutReturn s <+: s := by
  rw [withoutReturn]
  rcases hreturn : ['\r'].isSuffixOf? s with _ | rest
  · exact List.prefix_rfl
  · exact ⟨['\r'], List.isSuffixOf?_eq_some_iff_append_eq.mp hreturn⟩

theorem not_mem_of_mem_lines {line : List Char} (h : line ∈ lines s) : '\n' ∉ line := by
  obtain ⟨piece, hpiece, hstart⟩ : ∃ piece ∈ s.splitOn '\n', line <+: piece := by
    rw [lines] at h
    rcases List.eq_nil_or_concat (s.splitOn '\n') with hnil | ⟨init, last, hpieces⟩
    · exact absurd hnil (List.splitOn_ne_nil '\n' s)
    · rw [hpieces, List.concat_eq_append, List.getLast?_concat, List.dropLast_concat] at h
      have hline : line ∈ init.map withoutReturn ++ [last] := by
        rcases last with _ | ⟨c, last⟩
        · exact List.mem_append_left _ h
        · exact h
      rw [hpieces, List.concat_eq_append]
      rcases List.mem_append.mp hline with hinit | hlast
      · obtain ⟨piece, hpiece, rfl⟩ := List.mem_map.mp hinit
        exact ⟨piece, List.mem_append_left _ hpiece, withoutReturn_isPrefix piece⟩
      · exact ⟨line, List.mem_append_right _ hlast, List.prefix_rfl⟩
  exact fun hmem => not_mem_of_mem_splitOn hpiece (hstart.subset hmem)

/-- **Any texts without line feeds are the lines of some text.** -/
theorem exists_lines_eq {rows : List (List Char)} (h : ∀ row ∈ rows, '\n' ∉ row) :
    ∃ s, lines s = rows := by
  -- each line gets a return of its own, for a return that it ends with would be taken off
  refine ⟨(rows.map (· ++ ['\r'])).flatMap (· ++ ['\n']), ?_⟩
  rw [lines_flatMap_eq_map (by simpa using h), List.map_map]
  exact (List.map_congr_left fun row _ => withoutReturn_append row).trans (List.map_id rows)

end Classpath
