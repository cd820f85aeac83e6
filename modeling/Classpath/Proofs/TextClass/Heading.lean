import Classpath.Proofs.ClassType
import Classpath.Proofs.TextClass.Clauses
import Classpath.Proofs.TextClass.Header
import Classpath.Proofs.TextClass.Stages

/-!
# Headers

What a header says is read back from it, with whatever blanks it is written, as long as no name in
its first clause has the word before interfaces within. A name that has is cut there, and two
shorter ones take its place.

* `Classpath.TextClass.Heading` – what a header says: a kind, modifiers and names.
* `Classpath.TextClass.Heading.Writes` – the texts that say it.
* `Classpath.TextClass.Heading.header_read` – what is read of them, and when it is that.
-/

namespace Classpath.TextClass

open Draft (Modifier bits kindBits)

/-! ### What a header says -/

/-- **What a header says.** A class extends at most one other, and an interface implements none. -/
structure Heading where
  modifiers : List Modifier
  kind : ClassKind
  name : DottedName
  extended : List DottedName
  implemented : List DottedName
  length_extended_le : kind.isInterface = false → extended.length ≤ 1
  implemented_eq_nil : kind.isInterface = true → implemented = []

namespace Heading

variable (h : Heading)

/-- The root of the class hierarchy. -/
def root : ClassType :=
  ⟨String.ofList rootName, none⟩

/-- The superclass: the one that a class names, else the root, which has none itself. -/
def superclass : Option ClassType :=
  match h.kind.isInterface, h.extended with
  | false, n :: _ => some n.type
  | _, _ => if h.name.text = rootName then none else some root

/-- The interfaces: those that a class implements, or those that an interface extends. -/
def interfaces : List ClassType :=
  ClassType.sortedSet ((if h.kind.isInterface then h.extended else h.implemented).map (·.type))

/-- **The class that a header declares.** -/
def info : ClassInfo where
  type := h.name.type
  flags := bits h.modifiers ||| kindBits h.kind
  superclass := h.superclass
  interfaces := h.interfaces

/-- The tokens of the clauses. -/
def clauses : List (List Char) :=
  clauseTokens "extends".toList h.extended ++ clauseTokens "implements".toList h.implemented

/-- The tokens of the header. -/
def tokens : List (List Char) :=
  h.modifiers.map (·.text) ++ h.kind.label.toList :: h.name.text :: h.clauses

/-- **The texts of a header**: its tokens, with blanks between words and any around commas. -/
inductive Writes : List Char → Prop
  | intro {ps : List Placed} {trail : List Char} (laid : Laid h.tokens ps)
      (trail_blank : ∀ c ∈ trail, isBlank c = true) : Writes (layout ps ++ trail)

/-- **What must hold for a header to be read back.** -/
structure Readable : Prop where
  names : ∀ n ∈ h.extended, ¬ "implements".toList <:+: n.text
  root : h.kind.isInterface = true → h.name.text ≠ rootName

end Heading

variable {ids : Naming} {s : List Char} {h : Heading}

/-! ### Tokens of a header -/

theorem isToken_of_isWord {t : List Char} (ht : Draft.IsWord t) : IsToken t ∧ t ≠ [','] := by
  refine ⟨⟨ht.1, ht.not_blank⟩, ?_⟩
  rintro rfl
  exact ht.not_mem (Draft.isNameChar_of_mem_marks (c := ',') (by decide)) (by simp)

namespace Heading

/-- The words before the clauses. -/
def front (h : Heading) : List (List Char) :=
  h.modifiers.map (·.text) ++ [h.kind.label.toList, h.name.text]

theorem of_mem_front {t : List Char} (ht : t ∈ h.front) : IsToken t ∧ t ≠ [','] := by
  rcases List.mem_append.mp ht with ht | ht
  · obtain ⟨m, -, rfl⟩ := List.mem_map.mp ht
    exact isToken_of_isWord m.isWord
  · rcases List.mem_pair.mp ht with rfl | rfl
    · exact isToken_of_isWord (Draft.isWord_label h.kind)
    · exact ⟨h.name.isToken, h.name.text_ne_comma⟩

theorem isToken_of_mem_clauses {t : List Char} (ht : t ∈ h.clauses) : IsToken t := by
  have hclause : ∀ {keyword : List Char} {ns : List DottedName}, IsToken keyword →
      t ∈ clauseTokens keyword ns → IsToken t := by
    intro keyword ns hkeyword ht
    rw [clauseTokens] at ht
    split_ifs at ht
    · cases ht
    · rcases List.mem_cons.mp ht with rfl | ht
      · exact hkeyword
      · exact isToken_of_mem_nameTokens ht
  rcases List.mem_append.mp ht with ht | ht
  · exact hclause isToken_extends ht
  · exact hclause isToken_implements ht

/-- A clause begins with a word. -/
theorem ne_comma_of_clauses {t : List Char} {ts : List (List Char)} (ht : h.clauses = t :: ts) :
    t ≠ [','] := by
  rw [clauses, clauseTokens, clauseTokens] at ht
  split_ifs at ht
  · cases ht
  · exact (List.cons.inj ht).1 ▸ by decide
  · exact (List.cons.inj ht).1 ▸ by decide
  · exact (List.cons.inj ht).1 ▸ by decide

/-- The words before the clauses are read one by one. -/
theorem words_front {fs : List Placed} {rest : List Char} (hfs : Laid h.front fs)
    (hrest : ∀ c ∈ rest.head?, isBlank c = true) :
    words (layout fs ++ rest) = h.front ++ words rest := by
  have htoken : ∀ p ∈ fs, IsToken p.token := fun p hp =>
    (of_mem_front (hfs.tokens ▸ List.mem_map_of_mem hp)).1
  have hapart : ∀ p ∈ fs.tail, p.gap ≠ [] :=
    hfs.gap_ne_nil fun hcomma => (of_mem_front hcomma).2 rfl
  rw [words_layout_append htoken hfs.blank hapart hrest, hfs.tokens]

/-- **The words of a header**, and its clauses after their words were joined again. -/
theorem Writes.words_eq (hs : h.Writes s) : ∃ rest ps, words s = h.front ++ rest ∧
    [' '].intercalate rest = layout ps ∧ Laid h.clauses ps ∧ ∀ p ∈ ps.head?, p.gap = [] := by
  cases hs with | @intro ps trail laid htrail
  rcases hclauses : h.clauses with _ | ⟨keyword, ts⟩
  · have hlaid : Laid h.front ps := by
      simpa [tokens, front, hclauses] using laid
    refine ⟨[], [], ?_, rfl, ⟨rfl, by simp, .nil⟩, by simp⟩
    rw [words_front hlaid fun c hc => htrail c (List.mem_of_head? hc), words_of_blank htrail]
  · have htokens : h.tokens = (h.modifiers.map (·.text) ++ [h.kind.label.toList]) ++
        h.name.text :: keyword :: ts := by
      simp [tokens, hclauses]
    rw [htokens] at laid
    obtain ⟨fs, gap, rs, rfl, hgap, hblank, hfs, hrs⟩ :=
      laid.of_adjacent h.name.text_ne_comma (ne_comma_of_clauses hclauses)
    have hlaid : Laid h.front fs := by
      simpa [front] using hfs
    have htoken : ∀ p ∈ (⟨gap, keyword⟩ :: rs : List Placed), IsToken p.token := fun p hp =>
      isToken_of_mem_clauses (hclauses ▸ hrs.tokens ▸ List.mem_map_of_mem hp)
    obtain ⟨hkeyword, htokens⟩ := List.forall_mem_cons.mp htoken
    have hrest := isBlank_of_head?_append hgap hblank (keyword ++ layout rs ++ trail)
    refine ⟨words (keyword ++ layout rs ++ trail), ⟨[], keyword⟩ :: rs.map Placed.squeezed, ?_, ?_,
      hrs.squeezed.dropGap, by simp⟩
    · have htext : layout (fs ++ ⟨gap, keyword⟩ :: rs) ++ trail =
          layout fs ++ (gap ++ (keyword ++ layout rs ++ trail)) := by simp
      rw [htext, words_front hlaid hrest, words_blank_append hblank]
    · rw [intercalate_words_layout hkeyword htokens (List.forall_mem_cons.mp hrs.blank).2 htrail]
      simp

end Heading

/-! ### What is read -/

/-- The types that a clause lists. -/
def listed (ids : Naming) (clause : Option (List Char)) : List ClassType :=
  (clause.elim [] items).map (namedClass ids)

section Read

variable {flags : UInt16} {name : List Char} {rest : List (List Char)}
  {e i : Option (List Char)} {c : ClassInfo}

/-- **The parts of a header that is accepted.** -/
theorem of_header_eq_ok (h : header ids s = .ok c) : ∃ name rest e i,
    kind 0 (words s) = .ok (c.flags, name :: rest) ∧
      clauses ([' '].intercalate rest) = .ok (e, i) ∧ c.type = namedClass ids name := by
  rw [header] at h
  obtain ⟨⟨flags, rest⟩, hkind, h⟩ := exists_of_bind_eq_ok h
  rcases rest with _ | ⟨name, rest⟩
  · cases h
  · obtain ⟨⟨e, i⟩, hclauses, h⟩ := exists_of_bind_eq_ok h
    have hclass : c.flags = flags ∧ c.type = namedClass ids name := by
      dsimp only at h
      split at h
      · obtain rfl := Except.ok.inj h
        exact ⟨rfl, rfl⟩
      · rcases e with _ | superclass
        · obtain rfl := Except.ok.inj h
          exact ⟨rfl, rfl⟩
        · dsimp only at h
          split_ifs at h
          obtain rfl := Except.ok.inj h
          exact ⟨rfl, rfl⟩
    exact ⟨name, rest, e, i, hclass.1 ▸ hkind, hclauses, hclass.2⟩

variable (hkind : kind 0 (words s) = .ok (flags, name :: rest))

include hkind

theorem header_interface (hon : Flag.isInterface.on flags = true)
    (hclauses : clauses ([' '].intercalate rest) = .ok (e, i)) :
    header ids s = .ok {
      type := namedClass ids name
      flags
      superclass := some (namedClass ids rootName)
      interfaces := ClassType.sortedSet (listed ids e ++ listed ids i) } := by
  simp only [header, hkind, hclauses, bind, Except.bind, hon, if_true]
  rfl

theorem header_extends {superclass : List Char} (hoff : Flag.isInterface.on flags = false)
    (hclauses : clauses ([' '].intercalate rest) = .ok (some superclass, i)) :
    header ids s = if superclass.contains ',' then .error .severalSuperclasses
      else .ok {
        type := namedClass ids name
        flags
        superclass := some (namedClass ids superclass)
        interfaces := ClassType.sortedSet (listed ids i) } := by
  simp only [header, hkind, hclauses, bind, Except.bind, hoff, Bool.false_eq_true, if_false]
  rfl

theorem header_default (hoff : Flag.isInterface.on flags = false)
    (hclauses : clauses ([' '].intercalate rest) = .ok (none, i)) :
    header ids s = .ok {
      type := namedClass ids name
      flags
      superclass := if name = rootName then none else some (namedClass ids rootName)
      interfaces := ClassType.sortedSet (listed ids i) } := by
  simp only [header, hkind, hclauses, bind, Except.bind, hoff, Bool.false_eq_true, if_false]
  rfl

end Read

theorem listed_eq {ids : Naming} {clause : Option (List Char)} {ns : List DottedName}
    (h : clause.elim [] items = ns.map (·.text)) : listed ids clause = ns.map (·.type) := by
  rw [listed, h, List.map_map]
  exact List.map_congr_left fun n _ => n.namedClass_text ids

theorem namedClass_root (ids : Naming) : namedClass ids rootName = Heading.root :=
  Draft.namedClass_rootName ids

namespace Heading

/-- The modifiers, the kind and the name of a header are read. -/
theorem Writes.kind_eq {rest : List (List Char)} (hwords : words s = h.front ++ rest) :
    TextClass.kind 0 (words s) =
      .ok (bits h.modifiers ||| kindBits h.kind, h.name.text :: rest) := by
  rw [hwords, front, List.append_assoc]
  exact Draft.kind_text h.modifiers h.kind (h.name.text :: rest)

/-- **A readable header is read back.** -/
theorem Writes.header_eq (hs : h.Writes s) (hreadable : h.Readable) (ids : Naming) :
    header ids s = .ok h.info := by
  obtain ⟨rest, ps, hwords, hjoined, hps, hstart⟩ := hs.words_eq
  have hkind := Writes.kind_eq hwords
  have hon := Draft.isInterface_on_bits h.modifiers h.kind
  obtain ⟨e, i, hclauses, he, hi⟩ := clauses_layout hps hstart hreadable.names
  rw [← hjoined] at hclauses
  rcases hinterface : h.kind.isInterface with _ | _
  · rw [hinterface] at hon
    rcases hextended : h.extended with _ | ⟨n, ns⟩
    · rw [he.eq_none hextended] at hclauses
      rw [header_default hkind hon hclauses, listed_eq hi.items_eq, namedClass_root,
        h.name.namedClass_text]
      simp only [info, superclass, interfaces, hinterface, hextended]
      rfl
    · have hsingle := h.length_extended_le hinterface
      obtain rfl : ns = [] := by
        rw [hextended] at hsingle
        simpa using hsingle
      rw [he.eq_some n hextended] at hclauses
      rw [header_extends hkind hon hclauses, if_neg (by simpa using n.not_comma),
        listed_eq hi.items_eq, h.name.namedClass_text, n.namedClass_text]
      simp only [info, superclass, interfaces, hinterface, hextended]
      rfl
  · rw [hinterface] at hon
    rw [h.implemented_eq_nil hinterface] at hi
    rw [header_interface hkind hon hclauses, listed_eq he.items_eq, listed_eq hi.items_eq,
      namedClass_root, h.name.namedClass_text, List.map_nil, List.append_nil]
    simp only [info, superclass, interfaces, hinterface, if_neg (hreadable.root hinterface),
      if_true]

/-- A shorter text does not name the class of a name. -/
theorem namedClass_ne {t : List Char} {n : DottedName} (ht : t.length < n.text.length)
    (ids : Naming) : namedClass ids t ≠ n.type := by
  intro heq
  rw [namedClass, Naming.classType, String.toList_ofList, DottedName.type, ClassType.mk.injEq,
    String.ofList_inj] at heq
  have hle := ClassType.length_normalizedName_le t
  rw [heq.1] at hle
  omega

/-- The first name that has a word within. -/
theorem exists_first {word : List Char} {ns : List DottedName} {n : DottedName} (hn : n ∈ ns)
    (hword : word <:+: n.text) : ∃ before m after, ns = before ++ m :: after ∧ word <:+: m.text ∧
      ∀ k ∈ before, ¬ word <:+: k.text := by
  obtain ⟨m, hm⟩ := Option.isSome_iff_exists.mp
    (List.find?_isSome (p := fun m : DottedName => decide (word <:+: m.text)).mpr
      ⟨n, hn, by simpa using hword⟩)
  obtain ⟨hword, before, after, hns, hbefore⟩ := List.find?_eq_some_iff_append.mp hm
  exact ⟨before, m, after, hns, by simpa using hword, fun k hk => by simpa using hbefore k hk⟩

/-- **A name that is cut is not among the types that are read.** -/
theorem Writes.names_free (hs : h.Writes s) (hnodup : (h.extended.map (·.text)).Nodup)
    (hread : header ids s = .ok h.info) : ∀ n ∈ h.extended, ¬ "implements".toList <:+: n.text := by
  intro n hn hcut
  obtain ⟨before, n, after, hextended, hcut, hfree⟩ := exists_first hn hcut
  obtain ⟨rest, ps, hwords, hjoined, hps, hstart⟩ := hs.words_eq
  have hkind := Writes.kind_eq hwords
  have hon := Draft.isInterface_on_bits h.modifiers h.kind
  rw [clauses, hextended] at hps
  obtain ⟨x, y, hclauses, hitems, hshort⟩ := clauses_layout_cut hps hstart hfree hcut
  rw [← hjoined] at hclauses
  rcases hinterface : h.kind.isInterface with _ | _
  · rw [hinterface] at hon
    obtain rfl : before = [] := by
      have hsingle := h.length_extended_le hinterface
      rw [hextended, List.length_append, List.length_cons] at hsingle
      exact List.length_eq_zero_iff.mp (by omega)
    rw [header_extends hkind hon hclauses] at hread
    split_ifs at hread
    have hsuper := congrArg ClassInfo.superclass (Except.ok.inj hread)
    simp only [info, superclass, hinterface, hextended, List.nil_append] at hsuper
    exact namedClass_ne (hshort rfl) ids (Option.some.inj hsuper)
  · rw [hinterface] at hon
    rw [header_interface hkind hon hclauses] at hread
    have hinterfaces := congrArg ClassInfo.interfaces (Except.ok.inj hread)
    have hmem : n.type ∈ h.info.interfaces := by
      simp [info, interfaces, hinterface, hextended]
    rw [← hinterfaces, ClassType.mem_sortedSet, listed, listed, ← List.map_append] at hmem
    obtain ⟨t, ht, heq⟩ := List.mem_map.mp hmem
    rcases hitems (h.implemented_eq_nil hinterface) t ht with ⟨m, hm, rfl⟩ | hlength
    · rw [m.namedClass_text] at heq
      have htext : m.text = n.text := String.ofList_inj.mp (congrArg ClassType.name heq)
      rw [hextended, List.map_append, List.map_cons, List.nodup_middle, List.nodup_cons,
        ← List.map_append] at hnodup
      exact hnodup.1 (htext ▸ List.mem_map_of_mem hm)
    · exact namedClass_ne hlength ids heq

/-- An interface is never read without a superclass. -/
theorem Writes.ne_root (hs : h.Writes s) (hread : header ids s = .ok h.info)
    (hinterface : h.kind.isInterface = true) : h.name.text ≠ rootName := by
  intro hroot
  obtain ⟨rest, ps, hwords, -, -, -⟩ := hs.words_eq
  have hkind := Writes.kind_eq hwords
  have hon := Draft.isInterface_on_bits h.modifiers h.kind
  rw [hinterface] at hon
  obtain ⟨name, rest', e, i, hkind', hclauses, -⟩ := of_header_eq_ok hread
  obtain ⟨-, hrest⟩ := Prod.mk.inj (Except.ok.inj (hkind'.symm.trans hkind))
  obtain ⟨rfl, rfl⟩ := List.cons.inj hrest
  rw [header_interface hkind hon hclauses] at hread
  have hsuper := congrArg ClassInfo.superclass (Except.ok.inj hread)
  simp only [info, superclass, hinterface, if_pos hroot] at hsuper
  cases hsuper

/-- **What a header says is read back from it if it is readable, and only then.** The header is
accepted and declares the class with its superclass and its interfaces, whatever blanks it is
written with, and so does every accepted text of which it is the header. If no name stands twice in
the first clause, another class is read of a header that is not readable, or none. -/
theorem header_read (ids : Naming) (h : Heading) {s : List Char} (hs : h.Writes s) :
    (h.Readable → header ids s = .ok h.info ∧
      ∀ text c, headerText? text = some s → parse ids text = .ok c →
        ∃ annotations members, c = withMembers { h.info with annotations } members) ∧
    ((h.extended.map (·.text)).Nodup → (header ids s = .ok h.info ↔ h.Readable)) := by
  constructor
  · intro hreadable
    have hread := hs.header_eq hreadable ids
    refine ⟨hread, fun text c htext hparse => ?_⟩
    obtain ⟨t, declared, ht, hdeclared, annotations, members, hc⟩ := of_parse_eq_ok hparse
    obtain rfl : s = t := Option.some.inj (htext.symm.trans ht)
    obtain rfl : h.info = declared := Except.ok.inj (hread.symm.trans hdeclared)
    exact ⟨annotations, members, hc⟩
  · intro hnodup
    refine ⟨fun hread => ⟨hs.names_free hnodup hread, hs.ne_root hread⟩, fun hreadable => ?_⟩
    exact hs.header_eq hreadable ids

/-! ### Examples -/

/-- An annotation type that extends two interfaces. -/
def label : Heading where
  modifiers := [⟨.isPublic, rfl⟩]
  kind := .annotationType
  name := ⟨"a.Label".toList, by decide, DottedName.chars_of_all (by decide), by decide⟩
  extended := [⟨"extends".toList, by decide, DottedName.chars_of_all (by decide), by decide⟩,
    ⟨"b.C".toList, by decide, DottedName.chars_of_all (by decide), by decide⟩]
  implemented := []
  length_extended_le := by decide
  implemented_eq_nil := fun _ => rfl

/-- The way it is written. -/
def labelText : List Char :=
  "public annotation  a.Label extends extends ,b.C".toList

theorem writes_label : label.Writes labelText := by
  let ps : List Placed := [⟨[], "public".toList⟩, ⟨[' '], "annotation".toList⟩,
    ⟨[' ', ' '], "a.Label".toList⟩, ⟨[' '], "extends".toList⟩, ⟨[' '], "extends".toList⟩,
    ⟨[' '], [',']⟩, ⟨[], "b.C".toList⟩]
  have htext : labelText = layout ps ++ [] := by decide
  have hlaid : Laid label.tokens ps := ⟨by decide, by simp [ps, isBlank], by simp [ps]⟩
  exact htext ▸ .intro hlaid (by simp)

/-- The word between the clauses is read as a name where it is one, here and in a whole text. -/
theorem header_read_label :
    label.Writes labelText ∧ label.Readable ∧ (label.extended.map (·.text)).Nodup ∧
    (header .plain labelText = .ok label.info ↔ label.Readable) ∧
    ∃ text c annotations members, headerText? text = some labelText ∧ parse .plain text = .ok c ∧
      c = withMembers { label.info with annotations } members := by
  have hreadable : label.Readable := ⟨by decide, fun _ => by decide⟩
  obtain ⟨-, hparse⟩ := (header_read .plain label writes_label).1 hreadable
  have hnodup : (label.extended.map (·.text)).Nodup := by decide
  let text := ofLines [labelText ++ " \x7b".toList, ['}']]
  have htext : headerText? text = some labelText := by decide
  have hok : (parse .plain text).isOk = true := by decide
  rcases hresult : parse .plain text with e | c
  · rw [hresult] at hok
    cases hok
  · obtain ⟨annotations, members, hc⟩ := hparse text c htext hresult
    exact ⟨writes_label, hreadable, hnodup, (header_read .plain label writes_label).2 hnodup,
      text, c, annotations, members, htext, hresult, hc⟩

/-- A class whose superclass has the word before interfaces within its name. -/
def pump : Heading where
  modifiers := []
  kind := .plain
  name := ⟨"a.A".toList, by decide, DottedName.chars_of_all (by decide), by decide⟩
  extended := [⟨"b.implementsX".toList, by decide, DottedName.chars_of_all (by decide), by decide⟩]
  implemented := []
  length_extended_le := by decide
  implemented_eq_nil := fun _ => rfl

/-- **Not every header is read back**: this one is read as that of a class that extends `b.`. -/
theorem header_cut : ¬ ∀ (ids : Naming) (h : Heading) (s : List Char), h.Writes s →
    header ids s = .ok h.info := by
  intro hall
  let ps : List Placed := [⟨[], "class".toList⟩, ⟨[' '], "a.A".toList⟩, ⟨[' '], "extends".toList⟩,
    ⟨[' '], "b.implementsX".toList⟩]
  have hlaid : Laid pump.tokens ps := ⟨by decide, by simp [ps, isBlank], by simp [ps]⟩
  have hwrites : pump.Writes (layout ps ++ []) := .intro hlaid (by simp)
  exact hwrites.names_free (by decide) (hall .plain pump _ hwrites) _ (List.mem_singleton_self _)
    (by decide)

end Heading

end Classpath.TextClass
