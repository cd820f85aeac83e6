import Classpath.Proofs.TextClass.Heading

/-!
# Superclasses that no header names

A class that names no superclass extends the root of the hierarchy, except for the root. Which class
that is can be spelled in many ways, and the name in a header is compared with one of them before it
is normalized: a header that names the root in another one makes it its own superclass.

* `Classpath.TextClass.nameAndClauses?` – the name in a header, and the words behind it.
* `Classpath.TextClass.superclass_default` – the superclass of a class that names none.
-/

namespace Classpath.TextClass

variable {ids : Naming} {s : List Char}

/-- The name in a header, and the words behind it. -/
def nameAndClauses? (s : List Char) : Option (List Char × List (List Char)) :=
  match (words s).dropWhile fun word => (kindFlags? word).isNone with
  | _ :: name :: rest => some (name, rest)
  | _ => none

/-- **The words behind the kind of a class.** -/
theorem dropWhile_of_kind {before flags : UInt16} {ws rest : List (List Char)}
    (h : kind before ws = .ok (flags, rest)) :
    ∃ word, ws.dropWhile (fun word => (kindFlags? word).isNone) = word :: rest := by
  induction ws generalizing before with
  | nil => cases h
  | cons word ws ih =>
    rw [kind] at h
    rcases hword : kindFlags? word with _ | own
    · rw [hword] at h
      rcases hmodifier : modifier? word with _ | flag
      · rw [hmodifier] at h
        cases h
      · rw [hmodifier] at h
        rw [List.dropWhile_cons_of_pos (by simp [hword])]
        exact ih h
    · rw [hword] at h
      obtain ⟨-, rfl⟩ := Prod.mk.inj (Except.ok.inj h)
      exact ⟨word, List.dropWhile_cons_of_neg (by simp [hword])⟩

/-- Joined words begin with the first of them. -/
theorem isPrefix_of_intercalate {word t : List Char} {ts : List (List Char)} (hword : ' ' ∉ word)
    (h : word <+: [' '].intercalate (t :: ts)) : word <+: t := by
  rcases ts with _ | ⟨u, ts⟩
  · rwa [List.intercalate_singleton] at h
  · rw [List.intercalate_cons_cons, List.append_assoc, List.singleton_append] at h
    exact isPrefix_of_append_cons hword h

/-- **A first clause that is read** begins with its word, and the text begins with the clause. -/
theorem exists_prefix_of_clauses {e : List Char} {i : Option (List Char)}
    (h : clauses s = .ok (some e, i)) : ∃ a, a <+: s ∧ "extends".toList <+: trim a := by
  rw [clauses] at h
  rcases hcut : cutAtWord? "implements".toList s with _ | ⟨a, b⟩
  · refine ⟨s, List.prefix_rfl, ?_⟩
    by_contra hextends
    rw [hcut] at h
    simp only [isPrefixOf?_eq_none hextends] at h
    split_ifs at h
    cases h
  · refine ⟨a, ?_, ?_⟩
    · rw [eq_append_of_cutAtWord?_eq_some hcut, List.append_assoc]
      exact List.prefix_append ..
    · by_contra hextends
      rw [hcut] at h
      simp only [isPrefixOf?_eq_none hextends] at h
      split_ifs at h
      cases h

/-- There is no first clause if the first word does not begin with the word of one. -/
theorem eq_none_of_clauses {rest : List (List Char)} {e i : Option (List Char)}
    (h : clauses ([' '].intercalate rest) = .ok (e, i)) (hrest : ∀ word ∈ rest, IsToken word)
    (hno : ∀ word ∈ rest.head?, ¬ "extends".toList <+: word) : e = none := by
  rcases e with _ | e
  · rfl
  · obtain ⟨a, ha, hextends⟩ := exists_prefix_of_clauses h
    rcases rest with _ | ⟨word, rest⟩
    · obtain rfl := List.prefix_nil.mp ha
      cases List.prefix_nil.mp hextends
    · -- nothing is trimmed before the first word
      have htight : Tight ([' '].intercalate (word :: rest)) :=
        tight_intercalate fun t ht => ⟨(hrest t ht).1, (hrest t ht).tight⟩
      have htrim : trimStart a = a := by
        obtain ⟨more, hmore⟩ := ha
        refine trimStart_of_head fun c hc => htight.head c ?_
        rw [← hmore]
        exact List.mem_head?_append_of_mem_head? hc
      rw [trim, htrim] at hextends
      exact absurd (isPrefix_of_intercalate (by decide)
        (hextends.trans ((trimEnd_isPrefix a).trans ha))) (hno word rfl)

/-- A class that is no interface has not the flag of one. -/
theorem isInterface_of_kind {c : ClassInfo} (h : c.kind = .plain ∨ c.kind = .enumeration) :
    Flag.isInterface.on c.flags = false := by
  by_contra hon
  rw [ClassInfo.kind, ClassKind.ofFlags] at h
  split_ifs at h <;> simp_all

/-- **The superclass of a class that names none** is the root, unless the header spells its name
like that of the root. It is as it should be, and the class not its own superclass, exactly if the
root is spelled that way. -/
theorem superclass_default (ids : Naming) {text : String} {c : ClassInfo}
    (hparse : parse ids text = .ok c) (hkind : c.kind = .plain ∨ c.kind = .enumeration) :
    ∃ t name rest, headerText? text = some t ∧ nameAndClauses? t = some (name, rest) ∧
      c.type = namedClass ids name ∧
      ((∀ word ∈ rest.head?, ¬ "extends".toList <+: word) →
        c.superclass = (if name = rootName then none else some Heading.root) ∧
        ((c.superclass = if c.type = Heading.root then none else some Heading.root) ↔
          (c.type = Heading.root → name = rootName)) ∧
        (c.superclass ≠ some c.type ↔ (c.type = Heading.root → name = rootName))) := by
  obtain ⟨t, declared, htext, hdeclared, annotations, members, rfl⟩ := of_parse_eq_ok hparse
  have hoff := isInterface_of_kind hkind
  obtain ⟨name, rest, e, i, hname, hclauses, htype⟩ := of_header_eq_ok hdeclared
  obtain ⟨word, hdrop⟩ := dropWhile_of_kind hname
  refine ⟨t, name, rest, htext, by rw [nameAndClauses?, hdrop], htype, fun hno => ?_⟩
  have hsuffix : word :: name :: rest <:+ words t := hdrop ▸ List.dropWhile_suffix _
  have hrest : ∀ word ∈ rest, IsToken word := fun _ hword =>
    isToken_of_mem_words (hsuffix.subset (List.mem_cons_of_mem _ (List.mem_cons_of_mem _ hword)))
  obtain rfl := eq_none_of_clauses hclauses hrest hno
  have hsuper : declared.superclass = if name = rootName then none else some Heading.root := by
    rw [header_default hname hoff hclauses] at hdeclared
    rw [← Except.ok.inj hdeclared, namedClass_root]
  change declared.superclass = _ ∧
    (declared.superclass = (if declared.type = _ then _ else _) ↔ (declared.type = _ → _)) ∧
    (declared.superclass ≠ some declared.type ↔ (declared.type = _ → _))
  rw [hsuper]
  by_cases hroot : name = rootName
  · rw [hroot, namedClass_root] at htype
    simp [hroot, htype]
  · have hspelled : (declared.type = Heading.root → name = rootName) ↔
        declared.type ≠ Heading.root :=
      ⟨fun h heq => hroot (h heq), fun h heq => absurd heq h⟩
    rw [if_neg hroot, hspelled]
    refine ⟨rfl, ?_, ?_⟩
    · by_cases htyped : declared.type = Heading.root <;> simp [htyped]
    · rw [Ne, Option.some.injEq, eq_comm]

/-! ### Examples -/

/-- A class of the name of the root, in some spelling. -/
def rootText (name : String) : String :=
  ofLines [("class " ++ name ++ " \x7b").toList, ['}']]

/-- The class that is read of it. -/
def rootClass (superclass : Option ClassType) : ClassInfo where
  type := Heading.root
  flags := 0
  superclass
  interfaces := ClassType.sortedSet []

theorem parse_rootText : parse .plain (rootText "java.lang.Object") = .ok (rootClass none) := rfl

/-- The root has no superclass where its name has dots. -/
theorem superclass_default_root :
    parse .plain (rootText "java.lang.Object") = .ok (rootClass none) ∧
    (rootClass none).kind = .plain ∧
    headerText? (rootText "java.lang.Object") = some "class java.lang.Object".toList ∧
    nameAndClauses? "class java.lang.Object".toList = some (rootName, []) ∧
    (rootClass none).superclass ≠ some (rootClass none).type := by
  have hkind : (rootClass none).kind = .plain := rfl
  have hheader : headerText? (rootText "java.lang.Object") =
      some "class java.lang.Object".toList := by decide
  have hparts : nameAndClauses? "class java.lang.Object".toList = some (rootName, []) := by decide
  obtain ⟨t, name, rest, htext, hname, -, hsuper⟩ :=
    superclass_default .plain parse_rootText (.inl hkind)
  obtain rfl := Option.some.inj (hheader.symm.trans htext)
  obtain ⟨rfl, rfl⟩ := Prod.mk.inj (Option.some.inj (hparts.symm.trans hname))
  exact ⟨parse_rootText, hkind, hheader, hparts, (hsuper (by simp)).2.2.mpr fun _ => rfl⟩

/-- **The root can be its own superclass**: if its name is written with slashes. -/
theorem superclass_own : ¬ ∀ (ids : Naming) (text : String) (c : ClassInfo),
    parse ids text = .ok c → (c.kind = .plain ∨ c.kind = .enumeration) →
    (∀ t name rest, headerText? text = some t → nameAndClauses? t = some (name, rest) →
      ∀ word ∈ rest.head?, ¬ "extends".toList <+: word) →
    (c.superclass = if c.type = Heading.root then none else some Heading.root) ∧
      c.superclass ≠ some c.type := by
  intro h
  have hread : parse .plain (rootText "java/lang/Object") =
      .ok (rootClass (some Heading.root)) := rfl
  refine (h .plain _ _ hread (.inl rfl) fun t name rest htext hname => ?_).2 rfl
  have hheader : headerText? (rootText "java/lang/Object") =
      some "class java/lang/Object".toList := by decide
  have hparts : nameAndClauses? "class java/lang/Object".toList =
      some ("java/lang/Object".toList, []) := by decide
  obtain rfl := Option.some.inj (hheader.symm.trans htext)
  obtain ⟨-, rfl⟩ := Prod.mk.inj (Option.some.inj (hparts.symm.trans hname))
  simp

end Classpath.TextClass
