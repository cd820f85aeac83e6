import Classpath.Proofs.TextClass.Layout
import Classpath.Proofs.TextClass.Literals
import Classpath.Proofs.Path

/-!
# Clauses with any blanks

The clauses of a header name other types. What follows the name of the class is not read word by
word: it is cut at the first place where the word before interfaces stands, be it a word of its own
or a part of one, and a name in the first clause that has it within is cut there.

* `Classpath.TextClass.DottedName` – names as the language has them.
* `Classpath.TextClass.items_layout` – a list of names, whatever blanks it is written with.
* `Classpath.TextClass.clauses_layout` – clauses whose names do not have the word within.
* `Classpath.TextClass.clauses_layout_cut` – and those where one of the first clause has it.
-/

namespace Classpath

variable {s t a b : List Char} {c : Char}

/-! ### Words that are looked for -/

section Word

variable {word g : List Char}

/-- The first place of a word behind characters that it does not have. -/
theorem cutAtWord?_behind (hne : word ≠ []) (hg : ∀ c ∈ g, c ∉ word) (hgap : g ≠ [])
    (ha : ¬ word <:+: a) (b : List Char) : cutAtWord? word (a ++ g ++ b) =
      (cutAtWord? word b).map fun (before, after) => (a ++ g ++ before, after) := by
  have hnil : ¬ word <:+: [] := fun h => hne (List.infix_nil.mp h)
  induction g generalizing a with
  | nil => exact absurd rfl hgap
  | cons c g ih =>
    obtain ⟨hc, hg⟩ := List.forall_mem_cons.mp hg
    rcases g with _ | ⟨d, g⟩
    · simpa using cutAtWord?_append hc ha b
    · have hrest := ih hg (by simp) hnil
      rw [List.nil_append] at hrest
      rw [List.append_assoc, List.cons_append, cutAtWord?_append hc ha, hrest, Option.map_map]
      congr 1
      funext ⟨before, after⟩
      simp

theorem not_isInfix_between (hne : word ≠ []) (hg : ∀ c ∈ g, c ∉ word) (hgap : g ≠ [])
    (ha : ¬ word <:+: a) (hb : ¬ word <:+: b) : ¬ word <:+: a ++ g ++ b := by
  refine not_isInfix_of_cutAtWord?_eq_none ?_
  rw [cutAtWord?_behind hne hg hgap ha, cutAtWord?_eq_none hb]
  rfl

theorem IsToken.not_mem_of_blank (h : IsToken word) (hg : ∀ c ∈ g, isBlank c = true) :
    ∀ c ∈ g, c ∉ word := by
  intro c hc hmem
  have hword := h.2 c hmem
  rw [hg c hc] at hword
  cases hword

theorem IsToken.not_isInfix_margins (h : IsToken word) (ha : ∀ c ∈ a, isBlank c = true)
    (hb : ∀ c ∈ b, isBlank c = true) (hs : ¬ word <:+: s) : ¬ word <:+: a ++ s ++ b := by
  refine not_isInfix_of_cutAtWord?_eq_none ?_
  rw [cutAtWord?_between h.1 (h.not_mem_of_blank ha) (h.not_mem_of_blank hb),
    cutAtWord?_eq_none hs]
  rfl

end Word

namespace TextClass

/-! ### Lists with blanks -/

/-- **Blanks around a list do not belong to its items.** -/
theorem items_between (ha : ∀ c ∈ a, isBlank c = true) (hb : ∀ c ∈ b, isBlank c = true)
    (s : List Char) : items (a ++ s ++ b) = items s := by
  have hfree : ∀ {u : List Char}, (∀ c ∈ u, isBlank c = true) → ',' ∉ u :=
    fun hu hmem => absurd (hu _ hmem) (by decide)
  have hone : ∀ {a b p : List Char}, (∀ c ∈ a, isBlank c = true) → (∀ c ∈ b, isBlank c = true) →
      ',' ∉ p → items (a ++ p ++ b) = [trim p].filter (!·.isEmpty) := by
    intro a b p ha hb hp
    rw [items, List.splitOn_eq_singleton (by simp [hfree ha, hfree hb, hp]), List.map_singleton,
      trim_between ha hb]
  -- the blanks stand before the first piece and behind the last one
  have hpieces : ∀ (ts : List (List Char)) (a : List Char), ts ≠ [] → (∀ t ∈ ts, ',' ∉ t) →
      (∀ c ∈ a, isBlank c = true) →
      items (a ++ [','].intercalate ts ++ b) = (ts.map trim).filter (!·.isEmpty) := by
    intro ts
    induction ts with
    | nil => exact fun _ hne => absurd rfl hne
    | cons t ts ih =>
      intro a _ hts ha
      obtain ⟨ht, hts⟩ := List.forall_mem_cons.mp hts
      rcases ts with _ | ⟨u, us⟩
      · rw [List.intercalate_singleton, hone ha hb ht, List.map_singleton]
      · have htext : a ++ [','].intercalate (t :: u :: us) ++ b =
            (a ++ t) ++ ',' :: ([] ++ [','].intercalate (u :: us) ++ b) := by simp
        have hfirst := hone (b := []) ha (by simp) ht
        rw [List.append_nil] at hfirst
        rw [htext, items_append_comma, hfirst, ih [] (by simp) hts (by simp), List.map_cons,
          ← List.filter_append]
        rfl
  have hall := hpieces (s.splitOn ',') a (List.splitOn_ne_nil ',' s)
    (fun t ht => not_mem_of_mem_splitOn ht) ha
  rwa [List.intercalate_splitOn] at hall

theorem items_blank_append (ha : ∀ c ∈ a, isBlank c = true) (s : List Char) :
    items (a ++ s) = items s := by
  simpa using items_between ha (b := []) (by simp) s

theorem items_append_blank (hb : ∀ c ∈ b, isBlank c = true) (s : List Char) :
    items (s ++ b) = items s := by
  simpa using items_between (a := []) (by simp) hb s

theorem items_trim (s : List Char) : items (trim s) = items s := by
  obtain ⟨a, b, ha, hb, hs⟩ := exists_blanks_trim s
  conv_rhs => rw [hs]
  exact (items_between ha hb (trim s)).symm

/-! ### Names and lists of names -/

/-- **A name that is written with dots**, as identifiers that are joined by them are: it has none of
the characters of other spellings and of lists, and does not end as a class literal. -/
structure DottedName where
  text : List Char
  nonempty : text ≠ []
  chars : ∀ c ∈ text, isBlank c = false ∧ c ≠ ',' ∧ c ≠ '/' ∧ c ≠ ';'
  not_classLiteral : ¬ ".class".toList <:+ text

namespace DottedName

/-- The characters of a name are looked at one by one. -/
theorem chars_of_all {s : List Char}
    (h : s.all fun c => !isBlank c && c != ',' && c != '/' && c != ';') :
    ∀ c ∈ s, isBlank c = false ∧ c ≠ ',' ∧ c ≠ '/' ∧ c ≠ ';' := by
  intro c hc
  simpa [and_assoc] using List.all_eq_true.mp h c hc

variable (n : DottedName)

/-- The class of the name. -/
def type : ClassType :=
  ⟨String.ofList n.text, none⟩

theorem isToken : IsToken n.text :=
  ⟨n.nonempty, fun c hc => (n.chars c hc).1⟩

theorem not_comma : ',' ∉ n.text := fun h => (n.chars _ h).2.1 rfl

/-- Nothing is taken from the name. -/
theorem normalizedName_text : normalizedName n.text = n.text := by
  refine ClassType.Spelled.normalizedName_eq ⟨n.isToken.tight,
    isSuffixOf?_eq_none n.not_classLiteral, ClassType.not_descriptor_of_not_mem fun h => ?_, fun h => ?_⟩
  · exact (n.chars _ h).2.2.2 rfl
  · exact (n.chars _ h).2.2.1 rfl

theorem namedClass_text (ids : Naming) : namedClass ids n.text = n.type := by
  rw [namedClass, Naming.classType, String.toList_ofList, n.normalizedName_text]
  rfl

end DottedName

/-- A list of names: the names with commas between them. -/
def nameTokens (ns : List DottedName) : List (List Char) :=
  (ns.map (·.text)).intersperse [',']

theorem isToken_of_mem_nameTokens {ns : List DottedName} {t : List Char} (ht : t ∈ nameTokens ns) :
    IsToken t := by
  induction ns with
  | nil => cases ht
  | cons n ns ih =>
    rcases ns with _ | ⟨m, ns⟩
    · exact List.mem_singleton.mp ht ▸ n.isToken
    · have hcomma : IsToken [','] := ⟨by simp, by simp [isBlank]⟩
      have hrest : t ∈ n.text :: [','] :: nameTokens (m :: ns) := ht
      rcases List.mem_cons.mp hrest with rfl | hrest
      · exact n.isToken
      · rcases List.mem_cons.mp hrest with rfl | hrest
        · exact hcomma
        · exact ih hrest

section Names

variable {n m : DottedName} {ns : List DottedName} {ps : List Placed}

/-- **The first name of a list**, and the rest of it. -/
theorem Laid.of_names (h : Laid (nameTokens (n :: m :: ns)) ps) : ∃ gap gap' qs,
    layout ps = (gap ++ n.text ++ gap') ++ ',' :: layout qs ∧ (∀ c ∈ gap, isBlank c = true) ∧
      (∀ c ∈ gap', isBlank c = true) ∧ Laid (nameTokens (m :: ns)) qs := by
  have hnames : Laid (n.text :: [','] :: nameTokens (m :: ns)) ps := h
  obtain ⟨gap, ps, rfl, hgap, h⟩ := hnames.of_cons
  obtain ⟨gap', qs, rfl, hgap', h⟩ := h.of_cons
  exact ⟨gap, gap', qs, by simp, hgap, hgap', h⟩

theorem Laid.of_name (h : Laid (nameTokens [n]) ps) :
    ∃ gap, layout ps = gap ++ n.text ∧ ∀ c ∈ gap, isBlank c = true := by
  have hname : Laid [n.text] ps := h
  obtain ⟨gap, ps, rfl, hgap, h⟩ := hname.of_cons
  exact ⟨gap, by simp [h.of_nil], hgap⟩

theorem items_name {gap gap' : List Char} (hgap : ∀ c ∈ gap, isBlank c = true)
    (hgap' : ∀ c ∈ gap', isBlank c = true) (n : DottedName) :
    items (gap ++ n.text ++ gap') = [n.text] := by
  have htrim := n.isToken.tight.trim_eq
  rw [items_between hgap hgap', items_eq_singleton n.not_comma (by simp [htrim, n.nonempty]), htrim]

/-- **The items of a list of names**, whatever blanks it is written with. -/
theorem items_layout (h : Laid (nameTokens ns) ps) : items (layout ps) = ns.map (·.text) := by
  induction ns generalizing ps with
  | nil =>
    obtain rfl := h.of_nil
    rfl
  | cons n ns ih =>
    rcases ns with _ | ⟨m, ns⟩
    · obtain ⟨gap, htext, hgap⟩ := h.of_name
      have hname : items (gap ++ n.text ++ []) = [n.text] := items_name hgap (by simp) n
      rwa [List.append_nil, ← htext] at hname
    · obtain ⟨gap, gap', qs, htext, hgap, hgap', hqs⟩ := h.of_names
      rw [htext, items_append_comma, items_name hgap hgap', ih hqs]
      rfl

/-- A list begins with its first name; what follows holds the others. -/
theorem Laid.of_first (h : Laid (nameTokens (n :: ns)) ps) : ∃ gap back,
    layout ps = gap ++ n.text ++ back ∧ (∀ c ∈ gap, isBlank c = true) ∧
      ∀ s, items (s ++ back) = items s ++ ns.map (·.text) := by
  rcases ns with _ | ⟨m, ns⟩
  · obtain ⟨gap, htext, hgap⟩ := h.of_name
    exact ⟨gap, [], by simp [htext], hgap, fun s => by simp⟩
  · obtain ⟨gap, gap', qs, htext, hgap, hgap', hqs⟩ := h.of_names
    refine ⟨gap, gap' ++ ',' :: layout qs, by simp [htext], hgap, fun s => ?_⟩
    rw [← List.append_assoc, items_append_comma, items_append_blank hgap', items_layout hqs]

/-- **A word that no name has** does not occur in a list of them either. -/
theorem not_isInfix_layout {word : List Char} (hword : IsToken word) (hcomma : ',' ∉ word)
    (h : Laid (nameTokens ns) ps) (hfree : ∀ n ∈ ns, ¬ word <:+: n.text) :
    ¬ word <:+: layout ps := by
  induction ns generalizing ps with
  | nil =>
    obtain rfl := h.of_nil
    exact fun hmid => hword.1 (List.infix_nil.mp hmid)
  | cons n ns ih =>
    obtain ⟨hn, hns⟩ := List.forall_mem_cons.mp hfree
    rcases ns with _ | ⟨m, ns⟩
    · obtain ⟨gap, htext, hgap⟩ := h.of_name
      simpa [htext] using hword.not_isInfix_margins (b := []) hgap (by simp) hn
    · obtain ⟨gap, gap', qs, htext, hgap, hgap', hqs⟩ := h.of_names
      rw [htext]
      exact not_isInfix_append_cons hcomma (hword.not_isInfix_margins hgap hgap' hn) (ih hqs hns)

end Names

/-! ### Clauses -/

theorem exists_trimEnd (s : List Char) : ∃ b, (∀ c ∈ b, isBlank c = true) ∧ s = trimEnd s ++ b := by
  refine ⟨(s.reverse.takeWhile isBlank).reverse,
    fun c hc => List.mem_takeWhile_imp (List.mem_reverse.mp hc), ?_⟩
  rw [trimEnd, ← List.reverse_append, List.takeWhile_append_dropWhile, List.reverse_reverse]

theorem trim_trimEnd (s : List Char) : trim (trimEnd s) = trim s := by
  obtain ⟨b, hb, hs⟩ := exists_trimEnd s
  conv_rhs => rw [hs]
  exact (trim_append_blank hb (trimEnd s)).symm

theorem isToken_extends : IsToken "extends".toList :=
  isToken_of_all (by decide) (by decide)

theorem isToken_implements : IsToken "implements".toList :=
  isToken_of_all (by decide) (by decide)

theorem trim_extends (s : List Char) :
    trim ("extends".toList ++ s) = "extends".toList ++ trimEnd s :=
  trim_around isToken_extends.tight isToken_extends.1 [] s

/-- **A clause alone** is the whole of what follows the word before it. -/
theorem clauses_extends (h : cutAtWord? "implements".toList ("extends".toList ++ s) = none) :
    clauses ("extends".toList ++ s) = .ok (some (trim s), none) := by
  have hne : ("extends".toList ++ trimEnd s).isEmpty = false := rfl
  rw [clauses, h]
  simp only [trim_extends, hne, isPrefixOf?_append, trim_trimEnd]
  rfl

/-- **Two clauses** are cut where the word before the second one is found. -/
theorem clauses_extends_implements
    (h : cutAtWord? "implements".toList s = some ("extends".toList ++ a, b)) :
    clauses s = .ok (some (trim a), some (trim b)) := by
  have hne : ("extends".toList ++ trimEnd a).isEmpty = false := rfl
  rw [clauses, h]
  simp only [trim_extends, hne, isPrefixOf?_append, trim_trimEnd]
  rfl

theorem clauses_implements (s : List Char) :
    clauses ("implements".toList ++ s) = .ok (none, some (trim s)) := by
  rw [clauses, cutAtWord?_start isToken_implements.1]
  rfl

/-- The tokens of a clause, if it names a type. -/
def clauseTokens (keyword : List Char) (ns : List DottedName) : List (List Char) :=
  if ns.isEmpty then [] else keyword :: nameTokens ns

section Clauses

variable {extended implemented : List DottedName} {ps : List Placed}

theorem nameTokens_cons (n : DottedName) (ns : List DottedName) :
    ∃ ts, nameTokens (n :: ns) = n.text :: ts := by
  rcases ns with _ | ⟨m, ns⟩ <;> exact ⟨_, rfl⟩

theorem nameTokens_concat {ns : List DottedName} (hne : ns ≠ []) :
    ∃ ts n, nameTokens ns = ts ++ [DottedName.text n] := by
  induction ns with
  | nil => exact absurd rfl hne
  | cons n ns ih =>
    rcases ns with _ | ⟨m, ns⟩
    · exact ⟨[], n, rfl⟩
    · obtain ⟨ts, last, hlast⟩ := ih (by simp)
      exact ⟨n.text :: [','] :: ts, last, congrArg (n.text :: [','] :: ·) hlast⟩

theorem DottedName.text_ne_comma (n : DottedName) : n.text ≠ [','] := by
  intro h
  exact n.not_comma (h ▸ List.mem_singleton_self _)

/-- **A clause and what follows it.** -/
theorem Laid.of_clause {keyword : List Char} {ns : List DottedName} {ts : List (List Char)}
    (hkeyword : keyword ≠ [',']) (hne : ns ≠ []) (h : Laid (clauseTokens keyword ns ++ ts) ps) :
    ∃ gap p qs rs, ps = ⟨gap, keyword⟩ :: (p :: qs ++ rs) ∧ p.gap ≠ [] ∧
      Laid (nameTokens ns) (p :: qs) ∧ Laid ts rs := by
  obtain ⟨n, ns, rfl⟩ := List.exists_cons_of_ne_nil hne
  obtain ⟨cs, rs, rfl, hcs, hrs⟩ := h.of_append
  have hclause : Laid (keyword :: nameTokens (n :: ns)) cs := hcs
  obtain ⟨gap, qs, rfl, -, hqs⟩ := hclause.of_cons
  obtain ⟨names, hnames⟩ := nameTokens_cons n ns
  have hfirst := hqs
  rw [hnames] at hfirst
  obtain ⟨gap', qs, rfl, -, -⟩ := hfirst.of_cons
  have hgap := (List.isChain_cons_cons.mp hcs.apart).1
  refine ⟨gap, ⟨gap', n.text⟩, qs, rs, rfl, ?_, hqs, hrs⟩
  exact (hgap.resolve_left hkeyword).resolve_left n.text_ne_comma

/-- The first clause has the word before the second one only if a name has it. -/
theorem not_isInfix_extends {p : Placed} (hgap : p.gap ≠ [])
    (h : Laid (nameTokens extended) (p :: ps))
    (hfree : ∀ n ∈ extended, ¬ "implements".toList <:+: n.text) :
    ¬ "implements".toList <:+: "extends".toList ++ layout (p :: ps) := by
  have hnames := not_isInfix_layout isToken_implements (by decide) h.dropGap hfree
  have hblank := (List.forall_mem_cons.mp h.blank).1
  rw [layout_cons, ← List.append_assoc, ← List.append_assoc, List.append_assoc]
  exact not_isInfix_between isToken_implements.1 (isToken_implements.not_mem_of_blank hblank) hgap
    (by decide) (by simpa using hnames)

/-- A clause at the start of a text is its word and the list of its names. -/
theorem Laid.of_start {keyword : List Char} {ns : List DottedName} (hkeyword : keyword ≠ [','])
    (hne : ns ≠ []) (h : Laid (clauseTokens keyword ns) ps) (hstart : ∀ p ∈ ps.head?, p.gap = []) :
    ∃ p qs, layout ps = keyword ++ layout (p :: qs) ∧ p.gap ≠ [] ∧
      Laid (nameTokens ns) (p :: qs) := by
  rw [← List.append_nil (clauseTokens keyword ns)] at h
  obtain ⟨gap, p, qs, rs, rfl, hgap, hqs, hrs⟩ := h.of_clause hkeyword hne
  obtain rfl := hrs.of_nil
  obtain rfl : gap = [] := hstart _ rfl
  exact ⟨p, qs, by simp, hgap, hqs⟩

/-- **The text of a clause**, if there is one: what it lists are the names. -/
structure IsClause (ns : List DottedName) (clause : Option (List Char)) : Prop where
  items_eq : clause.elim [] items = ns.map (·.text)
  eq_none : ns = [] → clause = none
  eq_some : ∀ n, ns = [n] → clause = some n.text

theorem isClause_none : IsClause [] none where
  items_eq := rfl
  eq_none _ := rfl
  eq_some n hn := by cases hn

theorem isClause_some {ns : List DottedName} (hne : ns ≠ []) (h : Laid (nameTokens ns) ps) :
    IsClause ns (some (trim (layout ps))) where
  items_eq := (items_trim _).trans (items_layout h)
  eq_none hnil := absurd hnil hne
  eq_some n hn := by
    obtain ⟨gap, htext, hgap⟩ := (hn ▸ h : Laid (nameTokens [n]) ps).of_name
    rw [htext, trim_blank_append hgap, n.isToken.tight.trim_eq]

theorem clauses_second (hne : implemented ≠ [])
    (h : Laid (clauseTokens "implements".toList implemented) ps)
    (hstart : ∀ p ∈ ps.head?, p.gap = []) :
    ∃ i, clauses (layout ps) = .ok (none, i) ∧ IsClause implemented i := by
  obtain ⟨p, qs, htext, -, hqs⟩ := h.of_start (by decide) hne hstart
  exact ⟨_, htext ▸ clauses_implements _, isClause_some hne hqs⟩

theorem clauses_first (hne : extended ≠ [])
    (h : Laid (clauseTokens "extends".toList extended) ps) (hstart : ∀ p ∈ ps.head?, p.gap = [])
    (hfree : ∀ n ∈ extended, ¬ "implements".toList <:+: n.text) :
    ∃ e, clauses (layout ps) = .ok (e, none) ∧ IsClause extended e := by
  obtain ⟨p, qs, htext, hgap, hqs⟩ := h.of_start (by decide) hne hstart
  have hcut := cutAtWord?_eq_none (not_isInfix_extends hgap hqs hfree)
  exact ⟨_, htext ▸ clauses_extends hcut, isClause_some hne hqs⟩

/-- **Both clauses**: the word before the second one is found after the blanks behind the first. -/
theorem clauses_both (hne : extended ≠ []) (hne' : implemented ≠ [])
    (h : Laid (clauseTokens "extends".toList extended ++
      clauseTokens "implements".toList implemented) ps)
    (hstart : ∀ p ∈ ps.head?, p.gap = [])
    (hfree : ∀ n ∈ extended, ¬ "implements".toList <:+: n.text) :
    ∃ e i, clauses (layout ps) = .ok (e, i) ∧ IsClause extended e ∧ IsClause implemented i := by
  obtain ⟨ts, last, hlast⟩ := nameTokens_concat hne
  have hfirst : clauseTokens "extends".toList extended = "extends".toList :: ts ++ [last.text] := by
    rw [clauseTokens, if_neg (by simpa using hne), hlast, List.cons_append]
  have hsecond : clauseTokens "implements".toList implemented =
      "implements".toList :: nameTokens implemented := if_neg (by simpa using hne')
  rw [hfirst, hsecond, List.append_assoc, List.singleton_append] at h
  obtain ⟨cs, gap', rs, rfl, hgap', hblank', hcs, hrs⟩ :=
    h.of_adjacent last.text_ne_comma (by decide)
  rw [← hfirst] at hcs
  have hstart' : ∀ p ∈ cs.head?, p.gap = [] := fun p hp =>
    hstart p (List.mem_head?_append_of_mem_head? hp)
  obtain ⟨p, qs, htext, hgap, hqs⟩ := hcs.of_start (by decide) hne hstart'
  have hsplit : layout (cs ++ ⟨gap', "implements".toList⟩ :: rs) =
      "extends".toList ++ layout (p :: qs) ++ gap' ++ ("implements".toList ++ layout rs) := by
    rw [layout_append, htext]
    simp
  have hcut : cutAtWord? "implements".toList (layout (cs ++ ⟨gap', "implements".toList⟩ :: rs)) =
      some ("extends".toList ++ (layout (p :: qs) ++ gap'), layout rs) := by
    rw [hsplit, cutAtWord?_behind isToken_implements.1
      (isToken_implements.not_mem_of_blank hblank') hgap' (not_isInfix_extends hgap hqs hfree),
      cutAtWord?_start isToken_implements.1]
    simp
  exact ⟨_, _, clauses_extends_implements hcut,
    trim_append_blank hblank' (layout (p :: qs)) ▸ isClause_some hne hqs,
    isClause_some hne' hrs.tail⟩

/-- **The clauses of a header are read**, if no name in the first one has the word before the
second one within. -/
theorem clauses_layout (h : Laid (clauseTokens "extends".toList extended ++
      clauseTokens "implements".toList implemented) ps)
    (hstart : ∀ p ∈ ps.head?, p.gap = [])
    (hfree : ∀ n ∈ extended, ¬ "implements".toList <:+: n.text) :
    ∃ e i, clauses (layout ps) = .ok (e, i) ∧ IsClause extended e ∧ IsClause implemented i := by
  by_cases hextended : extended = [] <;> by_cases himplemented : implemented = []
  · subst hextended himplemented
    obtain rfl := h.of_nil
    exact ⟨none, none, rfl, isClause_none, isClause_none⟩
  · subst hextended
    obtain ⟨i, hread, hi⟩ := clauses_second himplemented h hstart
    exact ⟨none, i, hread, isClause_none, hi⟩
  · subst himplemented
    have hclause : Laid (clauseTokens "extends".toList extended ++ []) ps := h
    rw [List.append_nil] at hclause
    obtain ⟨e, hread, he⟩ := clauses_first hextended hclause hstart hfree
    exact ⟨e, none, hread, he, isClause_none⟩
  · exact clauses_both hextended himplemented h hstart hfree

/-! ### Names that are cut -/

section Cut

variable {before after : List DottedName} {n : DottedName}

/-- What is left on either side of a name that is cut is shorter than it. -/
theorem cutAtWord?_first (h : Laid (nameTokens (n :: after)) ps)
    (hcut : "implements".toList <:+: n.text) :
    ∃ x y, cutAtWord? "implements".toList (layout ps) = some (x, y) ∧
      (∀ t ∈ items x ++ items y, (∃ m ∈ after, t = m.text) ∨ t.length < n.text.length) ∧
      (trim x).length < n.text.length := by
  have hshort : ∀ {t u : List Char}, u.length < n.text.length → t ∈ items u →
      t.length < n.text.length := fun hu ht =>
    (isInfix_of_mem_items ht).length_le.trans_lt hu
  obtain ⟨x, y, hxy⟩ : ∃ x y, cutAtWord? "implements".toList n.text = some (x, y) := by
    rcases hword : cutAtWord? "implements".toList n.text with _ | ⟨x, y⟩
    · exact absurd hcut (not_isInfix_of_cutAtWord?_eq_none hword)
    · exact ⟨x, y, rfl⟩
  have hlength : x.length + 10 + y.length = n.text.length := by
    rw [eq_append_of_cutAtWord?_eq_some hxy, List.length_append, List.length_append]
    rfl
  obtain ⟨gap, back, htext, hgap, hback⟩ := h.of_first
  have hplace : cutAtWord? "implements".toList (gap ++ n.text ++ back) =
      some (gap ++ x, y ++ back) := by
    have hfirst := cutAtWord?_between isToken_implements.1
      (isToken_implements.not_mem_of_blank hgap) (b := []) (by simp) n.text
    rw [hxy, List.append_nil] at hfirst
    simpa using cutAtWord?_append_of_eq_some hfirst back
  refine ⟨gap ++ x, y ++ back, by rw [htext, hplace], fun t ht => ?_, ?_⟩
  · rw [items_blank_append hgap, hback, List.mem_append, List.mem_append] at ht
    rcases ht with ht | ht | ht
    · exact .inr (hshort (by omega) ht)
    · exact .inr (hshort (by omega) ht)
    · obtain ⟨m, hm, rfl⟩ := List.mem_map.mp ht
      exact .inl ⟨m, hm, rfl⟩
  · rw [trim_blank_append hgap]
    exact (trim_isInfix x).length_le.trans_lt (by omega)

/-- **A list is cut at the first name that has the word before interfaces within**: what is left of
that name on either side is shorter than it. -/
theorem cutAtWord?_layout (h : Laid (nameTokens (before ++ n :: after)) ps)
    (hfree : ∀ m ∈ before, ¬ "implements".toList <:+: m.text)
    (hcut : "implements".toList <:+: n.text) :
    ∃ x y, cutAtWord? "implements".toList (layout ps) = some (x, y) ∧
      (∀ t ∈ items x ++ items y, (∃ m ∈ before ++ after, t = m.text) ∨
        t.length < n.text.length) ∧
      (before = [] → (trim x).length < n.text.length) := by
  induction before generalizing ps with
  | nil =>
    obtain ⟨x, y, hxy, hitems, hshort⟩ := cutAtWord?_first h hcut
    exact ⟨x, y, hxy, hitems, fun _ => hshort⟩
  | cons m before ih =>
    obtain ⟨hm, hfree⟩ := List.forall_mem_cons.mp hfree
    obtain ⟨m', more, hmore⟩ : ∃ m' more, before ++ n :: after = m' :: more :=
      List.exists_cons_of_ne_nil (by simp)
    rw [List.cons_append, hmore] at h
    obtain ⟨gap, gap', qs, htext, hgap, hgap', hqs⟩ := h.of_names
    obtain ⟨x, y, hxy, hitems, -⟩ := ih (hmore ▸ hqs) hfree
    refine ⟨(gap ++ m.text ++ gap') ++ ',' :: x, y, ?_, fun t ht => ?_, fun hnil => by cases hnil⟩
    · rw [htext, cutAtWord?_append (by decide)
        (isToken_implements.not_isInfix_margins hgap hgap' hm), hxy]
      rfl
    · rw [items_append_comma, items_name hgap hgap', List.append_assoc, List.mem_append,
        List.mem_singleton] at ht
      rcases ht with rfl | ht
      · exact .inl ⟨m, List.mem_cons_self .., rfl⟩
      · exact (hitems t ht).imp_left fun ⟨k, hk, heq⟩ => ⟨k, List.mem_cons_of_mem m hk, heq⟩

/-- **A first clause with such a name** is cut there. -/
theorem clauses_layout_cut (h : Laid (clauseTokens "extends".toList (before ++ n :: after) ++
      clauseTokens "implements".toList implemented) ps)
    (hstart : ∀ p ∈ ps.head?, p.gap = [])
    (hfree : ∀ m ∈ before, ¬ "implements".toList <:+: m.text)
    (hcut : "implements".toList <:+: n.text) :
    ∃ x y, clauses (layout ps) = .ok (some (trim x), some (trim y)) ∧
      (implemented = [] → ∀ t ∈ items (trim x) ++ items (trim y),
        (∃ m ∈ before ++ after, t = m.text) ∨ t.length < n.text.length) ∧
      (before = [] → (trim x).length < n.text.length) := by
  obtain ⟨gap, p, qs, rs, rfl, hgap, hqs, hrs⟩ := h.of_clause (by decide) (by simp)
  obtain rfl : gap = [] := hstart _ rfl
  obtain ⟨x, y, hxy, hitems, hshort⟩ := cutAtWord?_layout hqs.dropGap hfree hcut
  have hblank := (List.forall_mem_cons.mp hqs.blank).1
  have htext : layout (⟨[], "extends".toList⟩ :: (p :: qs ++ rs)) =
      "extends".toList ++ p.gap ++ layout (⟨[], p.token⟩ :: qs) ++ layout rs := by
    simp
  have hplace : cutAtWord? "implements".toList
      (layout (⟨[], "extends".toList⟩ :: (p :: qs ++ rs))) =
      some ("extends".toList ++ (p.gap ++ x), y ++ layout rs) := by
    rw [htext, cutAtWord?_append_of_eq_some ?_]
    rw [cutAtWord?_behind isToken_implements.1 (isToken_implements.not_mem_of_blank hblank) hgap
      (by decide), hxy]
    simp
  refine ⟨p.gap ++ x, y ++ layout rs, clauses_extends_implements hplace, fun hnil => ?_,
    fun hnil => ?_⟩
  · subst hnil
    obtain rfl := hrs.of_nil
    rw [items_trim, items_trim, items_blank_append hblank, layout_nil, List.append_nil]
    exact hitems
  · rw [trim_blank_append hblank]
    exact hshort hnil

end Cut

end Clauses

end TextClass

end Classpath
