import Mathlib.Data.List.Chain
import Classpath.Proofs.Text

/-!
# Tokens and the blanks between them

A header is written as tokens with blanks before them: any blanks around a comma and at least one
between two words. The reader takes its words and joins the later ones again with single blanks,
which puts one blank in the place of all those between two tokens and none where there were none. So
what it looks at is the same tokens, written in another way.

* `Classpath.TextClass.Laid` – tokens with the blanks before them.
* `Classpath.TextClass.words_layout_append` – tokens with blanks between them are words.
* `Classpath.TextClass.intercalate_words_layout` – tokens after their words were joined again.
-/

namespace Classpath

/-! ### Words and blanks -/

section Words

variable {t u : List Char} {c : Char}

/-- A text without blanks, and not empty. -/
def IsToken (t : List Char) : Prop :=
  t ≠ [] ∧ ∀ c ∈ t, isBlank c = false

theorem isToken_of_all (hne : t ≠ []) (h : t.all (!isBlank ·)) : IsToken t :=
  ⟨hne, fun c hc => by simpa using List.all_eq_true.mp h c hc⟩

theorem IsToken.tight (h : IsToken t) : Tight t :=
  tight_of_forall h.2

theorem IsToken.append (ht : IsToken t) (hu : IsToken u) : IsToken (t ++ u) :=
  ⟨List.append_ne_nil_of_left_ne_nil ht.1 u, List.forall_mem_append.mpr ⟨ht.2, hu.2⟩⟩

theorem isToken_of_mem_words (ht : t ∈ words u) : IsToken t := by
  obtain ⟨hpiece, hne⟩ := List.mem_filter.mp ht
  exact ⟨by simpa using hne, eq_false_of_mem_splitOnP hpiece⟩

theorem words_append_blank (hc : isBlank c = true) (a b : List Char) :
    words (a ++ c :: b) = words a ++ words b := by
  rw [words, List.splitOnP_append_cons a b hc, List.filter_append]
  rfl

theorem words_blank_append (hu : ∀ c ∈ u, isBlank c = true) (b : List Char) :
    words (u ++ b) = words b := by
  induction u with
  | nil => rfl
  | cons c u ih =>
    obtain ⟨hc, hu⟩ := List.forall_mem_cons.mp hu
    exact (words_append_blank hc [] (u ++ b)).trans (ih hu)

theorem words_of_blank (hu : ∀ c ∈ u, isBlank c = true) : words u = [] := by
  rw [← List.append_nil u, words_blank_append hu]
  rfl

/-- A text that begins with blanks begins with one. -/
theorem isBlank_of_head?_append (hne : u ≠ []) (hu : ∀ c ∈ u, isBlank c = true) (b : List Char) :
    ∀ c ∈ (u ++ b).head?, isBlank c = true := by
  obtain ⟨c, u, rfl⟩ := List.exists_cons_of_ne_nil hne
  exact fun d hd => hu d (Option.some.inj hd ▸ List.mem_cons_self ..)

/-- A token that blanks follow is a word. -/
theorem words_token_append (ht : IsToken t) (hu : ∀ c ∈ u.head?, isBlank c = true) :
    words (t ++ u) = t :: words u := by
  rcases u with _ | ⟨c, u⟩
  · rw [List.append_nil, words_eq_singleton ht.1 ht.2]
    rfl
  · have hc : isBlank c = true := hu c rfl
    rw [words_append_blank hc, words_eq_singleton ht.1 ht.2, List.singleton_append]
    exact congrArg (t :: ·) (words_append_blank hc [] u).symm

end Words

namespace TextClass

/-! ### Tokens -/

/-- A token and the blanks before it. -/
structure Placed where
  gap : List Char
  token : List Char

/-- Tokens as they are written. -/
def layout (ps : List Placed) : List Char :=
  ps.flatMap fun p => p.gap ++ p.token

/-- **Tokens with blanks before them**, of which there may be none around a comma. -/
structure Laid (ts : List (List Char)) (ps : List Placed) : Prop where
  tokens : ps.map (·.token) = ts
  blank : ∀ p ∈ ps, ∀ c ∈ p.gap, isBlank c = true
  apart : ps.IsChain fun p q => p.token = [','] ∨ q.token = [','] ∨ q.gap ≠ []

variable {ts us : List (List Char)} {p : Placed} {ps qs : List Placed} {t trail : List Char}

@[simp] theorem layout_nil : layout [] = [] := rfl

@[simp] theorem layout_cons (p : Placed) (ps : List Placed) :
    layout (p :: ps) = p.gap ++ p.token ++ layout ps :=
  List.flatMap_cons

@[simp] theorem layout_append (ps qs : List Placed) :
    layout (ps ++ qs) = layout ps ++ layout qs :=
  List.flatMap_append

namespace Laid

theorem of_append (h : Laid (ts ++ us) ps) : ∃ qs rs, ps = qs ++ rs ∧ Laid ts qs ∧ Laid us rs := by
  obtain ⟨qs, rs, rfl, rfl, rfl⟩ := List.map_eq_append_iff.mp h.tokens
  obtain ⟨hqs, hrs⟩ := List.forall_mem_append.mp h.blank
  exact ⟨qs, rs, rfl, ⟨rfl, hqs, h.apart.left_of_append⟩, ⟨rfl, hrs, h.apart.right_of_append⟩⟩

theorem of_cons (h : Laid (t :: ts) ps) : ∃ gap qs, ps = ⟨gap, t⟩ :: qs ∧
    (∀ c ∈ gap, isBlank c = true) ∧ Laid ts qs := by
  obtain ⟨⟨gap, _⟩, qs, rfl, rfl, hqs⟩ := List.map_eq_cons_iff.mp h.tokens
  obtain ⟨hgap, hblank⟩ := List.forall_mem_cons.mp h.blank
  exact ⟨gap, qs, rfl, hgap, ⟨hqs, hblank, h.apart.tail⟩⟩

theorem tail (h : Laid (t :: ts) (p :: ps)) : Laid ts ps :=
  ⟨(List.cons.inj h.tokens).2, (List.forall_mem_cons.mp h.blank).2, h.apart.tail⟩

theorem of_nil (h : Laid [] ps) : ps = [] :=
  List.map_eq_nil_iff.mp h.tokens

/-- **Two tokens that are no commas have blanks between them.** -/
theorem of_adjacent {u : List Char} (h : Laid (ts ++ t :: u :: us) ps) (ht : t ≠ [','])
    (hu : u ≠ [',']) : ∃ qs gap rs, ps = qs ++ ⟨gap, u⟩ :: rs ∧ gap ≠ [] ∧
      (∀ c ∈ gap, isBlank c = true) ∧ Laid (ts ++ [t]) qs ∧ Laid (u :: us) (⟨gap, u⟩ :: rs) := by
  rw [List.append_cons] at h
  obtain ⟨qs, rest, rfl, hqs, hrest⟩ := h.of_append
  obtain ⟨gap, rs, rfl, hgap, -⟩ := hrest.of_cons
  obtain ⟨init, ps, rfl, -, hlast⟩ := hqs.of_append
  obtain ⟨gap', ps, rfl, -, hnil⟩ := hlast.of_cons
  obtain rfl := hnil.of_nil
  refine ⟨_, gap, rs, rfl, ?_, hgap, hqs, hrest⟩
  have happart := h.apart
  rw [List.append_assoc, List.singleton_append] at happart
  have hpair := (List.isChain_append_cons_cons.mp happart).2.1
  exact (hpair.resolve_left ht).resolve_left hu

theorem gap_ne_nil (h : Laid ts ps) (hcomma : [','] ∉ ts) : ∀ p ∈ ps.tail, p.gap ≠ [] := by
  obtain rfl := h.tokens
  have happart : ps.IsChain fun _ q => q.gap ≠ [] := by
    refine h.apart.imp_of_mem_imp fun p q hp hq hpq => ?_
    have hne : ∀ r ∈ ps, r.token ≠ [','] := fun r hr heq =>
      hcomma (List.mem_map.mpr ⟨r, hr, heq⟩)
    exact (hpq.resolve_left (hne p hp)).resolve_left (hne q hq)
  clear h hcomma
  induction ps with
  | nil => simp
  | cons p ps ih =>
    rcases ps with _ | ⟨q, ps⟩
    · simp
    · obtain ⟨hq, hps⟩ := List.isChain_cons_cons.mp happart
      exact List.forall_mem_cons.mpr ⟨hq, ih hps⟩

/-- The blanks before all tokens do not matter. -/
theorem dropGap (h : Laid ts (p :: ps)) : Laid ts (⟨[], p.token⟩ :: ps) := by
  refine ⟨h.tokens, List.forall_mem_cons.mpr ⟨by simp, (List.forall_mem_cons.mp h.blank).2⟩, ?_⟩
  have happart := h.apart
  rcases ps with _ | ⟨q, ps⟩
  · exact .singleton _
  · rw [List.isChain_cons_cons] at happart ⊢
    exact happart

end Laid

/-- **Tokens with blanks between them are words.** -/
theorem words_layout_append {rest : List Char} (htoken : ∀ p ∈ ps, IsToken p.token)
    (hblank : ∀ p ∈ ps, ∀ c ∈ p.gap, isBlank c = true) (hapart : ∀ p ∈ ps.tail, p.gap ≠ [])
    (hrest : ∀ c ∈ rest.head?, isBlank c = true) :
    words (layout ps ++ rest) = ps.map (·.token) ++ words rest := by
  induction ps with
  | nil => rfl
  | cons p ps ih =>
    obtain ⟨htoken, htokens⟩ := List.forall_mem_cons.mp htoken
    obtain ⟨hblank, hblanks⟩ := List.forall_mem_cons.mp hblank
    have hnext : ∀ c ∈ (layout ps ++ rest).head?, isBlank c = true := by
      rcases ps with _ | ⟨q, ps⟩
      · exact hrest
      · have hq : q ∈ q :: ps := List.mem_cons_self ..
        rw [layout_cons, List.append_assoc, List.append_assoc]
        exact isBlank_of_head?_append (hapart q hq) (hblanks q hq) _
    rw [layout_cons, List.append_assoc, List.append_assoc, words_blank_append hblank,
      words_token_append htoken hnext,
      ih htokens hblanks fun q hq => hapart q (List.mem_of_mem_tail hq)]
    rfl

/-! ### Words that are joined again -/

/-- A token with one blank before it, if there are any. -/
def Placed.squeezed (p : Placed) : Placed :=
  { p with gap := if p.gap.isEmpty then [] else [' '] }

/-- **Tokens after their words were joined again** stand as they did, with single blanks. -/
theorem intercalate_words_layout (ht : IsToken t) (htoken : ∀ p ∈ ps, IsToken p.token)
    (hblank : ∀ p ∈ ps, ∀ c ∈ p.gap, isBlank c = true) (htrail : ∀ c ∈ trail, isBlank c = true) :
    [' '].intercalate (words (t ++ layout ps ++ trail)) = t ++ layout (ps.map Placed.squeezed) := by
  -- a token without blanks before it is part of the word that is being read
  induction ps generalizing t with
  | nil =>
    have hhead : ∀ c ∈ trail.head?, isBlank c = true := fun c hc => htrail c (List.mem_of_head? hc)
    rw [layout_nil, List.append_nil, words_token_append ht hhead, words_of_blank htrail,
      List.intercalate_singleton, List.map_nil, layout_nil, List.append_nil]
  | cons p ps ih =>
    obtain ⟨htoken, htokens⟩ := List.forall_mem_cons.mp htoken
    obtain ⟨hblank, hblanks⟩ := List.forall_mem_cons.mp hblank
    rcases hgap : p.gap with _ | ⟨c, gap⟩
    · have hjoined := ih (ht.append htoken) htokens hblanks
      simpa [Placed.squeezed, hgap] using hjoined
    · have hjoined := ih htoken htokens hblanks
      have hhead : ∀ d ∈ (p.gap ++ (p.token ++ layout ps ++ trail)).head?, isBlank d = true :=
        isBlank_of_head?_append (by simp [hgap]) hblank _
      have hne : words (p.token ++ layout ps ++ trail) ≠ [] := by
        intro hnil
        rw [hnil] at hjoined
        exact htoken.1 (List.append_eq_nil_iff.mp hjoined.symm).1
      have htext : t ++ layout (p :: ps) ++ trail =
          t ++ (p.gap ++ (p.token ++ layout ps ++ trail)) := by simp
      rw [htext, words_token_append ht hhead, words_blank_append hblank,
        List.intercalate_cons_of_ne_nil hne, hjoined]
      simp [Placed.squeezed, hgap]

theorem Laid.squeezed (h : Laid ts ps) : Laid ts (ps.map Placed.squeezed) where
  tokens := by
    rw [List.map_map]
    exact h.tokens
  blank := by
    intro p hp
    obtain ⟨q, -, rfl⟩ := List.mem_map.mp hp
    rw [Placed.squeezed]
    split
    · simp
    · simp [isBlank]
  apart := by
    rw [List.isChain_map]
    refine h.apart.imp fun p q hpq => ?_
    refine hpq.imp_right (Or.imp_right fun hne => ?_)
    simp [Placed.squeezed, hne]

end TextClass

end Classpath
