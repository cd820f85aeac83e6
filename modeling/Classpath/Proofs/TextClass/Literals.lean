import Classpath.Proofs.TextClass.Differing

/-!
# String literals

The characters between the quotes of a string literal are not meant to be read as anything else. A
line is taken apart at the first place of a mark, though, and not every place that is looked at
stands before the literal. That of a default is never looked into. A field with an initial value is
told from a method by the parentheses of the whole line, so a literal there is opaque as long as it
has none that opens; and the arguments of an annotation are cut at all commas, so a literal among
them must have none.

* `Classpath.TextClass.Stands` – what stands before and behind a literal in its line.
* `Classpath.TextClass.DifferInLiteral`, `Classpath.TextClass.Opaque` – texts that differ in the
  contents of a literal, and contents that are opaque.
* `Classpath.TextClass.opaque_of_keeps` – what a line keeps together is opaque.
-/

namespace Classpath.TextClass

variable {ids : Naming} {a b s : List Char}

/-! ### Literals and where they stand -/

/-- A string literal. -/
def literal (contents : List Char) : List Char :=
  '"' :: (contents ++ ['"'])

/-- What a string literal is the value of. -/
inductive Role where
  | initial
  | argument
  | default
  deriving DecidableEq

/-- **What stands before and behind a literal** in the line whose initial value, argument or default
it is, with blanks around it. -/
inductive Stands : Role → List Char → List Char → Prop
  /-- A field that has the literal as its initial value. -/
  | initial {declaration gap margin : List Char} (head : ∀ c ∈ declaration.head?, isBlank c = false)
      (not_at : declaration.head? ≠ some '@') (not_open : '(' ∉ declaration)
      (not_equals : '=' ∉ declaration) (gap_blank : ∀ c ∈ gap, isBlank c = true)
      (margin_blank : ∀ c ∈ margin, isBlank c = true) :
      Stands .initial (declaration ++ '=' :: gap) (margin ++ [';'])
  /-- An annotation with the literal among its arguments. -/
  | argument {name front key gap margin back : List Char} (not_open : '(' ∉ name)
      (front_last : ∀ c ∈ front.getLast?, c = ',') (back_head : ∀ c ∈ back.head?, c = ',')
      (not_comma : ',' ∉ key) (not_equals : '=' ∉ key) (gap_blank : ∀ c ∈ gap, isBlank c = true)
      (margin_blank : ∀ c ∈ margin, isBlank c = true) :
      Stands .argument ('@' :: (name ++ '(' :: (front ++ (key ++ '=' :: gap))))
        (margin ++ (back ++ [')']))
  /-- A method that has the literal as its default. -/
  | default {signature parameters space gap margin : List Char}
      (head : ∀ c ∈ signature.head?, isBlank c = false) (not_at : signature.head? ≠ some '@')
      (not_open : '(' ∉ signature) (not_close : ')' ∉ parameters)
      (space_blank : ∀ c ∈ space, isBlank c = true) (gap_blank : ∀ c ∈ gap, isBlank c = true)
      (margin_blank : ∀ c ∈ margin, isBlank c = true) :
      Stands .default
        (signature ++ '(' :: (parameters ++ ')' :: (space ++ ("default".toList ++ gap))))
        (margin ++ [';'])

/-- The stages at which a line can be one with a literal of a role. A statement in a body has no
roles, and before the header there are annotations only. -/
def Role.MayStand : Role → Stage → Prop
  | _, .inside _ _ (.body _ _) => False
  | .argument, .head _ => True
  | _, .head _ => False
  | _, _ => True

/-- **Texts that differ in the contents of one literal** of a role, which stands in no comment. -/
inductive DifferInLiteral (ids : Naming) (role : Role) (s s' : List Char) (text text' : String) :
    Prop
  | intro {before after : List (List Char)} {a p q b : List Char} (stands : Stands role p q)
      (code : '"' ∈ code (p ++ ['"'])) (blanks : ∀ c ∈ a ++ b, isBlank c = true)
      (mayStand : ∀ st, Stage.start.reach ids (contents before) = .ok st → role.MayStand st)
      (pieces_eq : pieces text = before ++ (a ++ (p ++ literal s ++ q) ++ b) :: after)
      (pieces_eq' : pieces text' = before ++ (a ++ (p ++ literal s' ++ q) ++ b) :: after)

/-- The constants that literals denote. -/
def Denotes (s s' : List Char) (v v' : ElementValue ClassType) : Prop :=
  v = .const (.string (String.ofList s)) ∧ v' = .const (.string (String.ofList s'))

/-- **What a literal may make a difference to**, by its role: an initial value is not kept, and an
argument is not if a later one has its name. -/
def Role.Differs {α : Type} : Role → (α → α → Prop) → α → α → Prop
  | .initial, _ => fun x y => x = y
  | .argument, D => fun x y => x = y ∨ D x y
  | .default, D => D

/-- **Contents that are opaque** in a role: texts that differ in them in one literal are both
accepted or both refused, and the classes that they write are the same but for the constant that it
denotes. -/
def Opaque (ids : Naming) (role : Role) (s s' : List Char) : Prop :=
  ∀ text text', DifferInLiteral ids role s s' text text' →
    Agree (role.Differs (ClassDiffers (Denotes s s'))) (parse ids text) (parse ids text')

/-- The contents that a line with a literal of a role keeps together. -/
def Role.Keeps : Role → List Char → Prop
  | .initial, s => '(' ∉ s
  | .argument, s => ',' ∉ s
  | .default, _ => True

/-! ### The line of a literal -/

theorem tight_literal (s : List Char) : Tight (literal s) := by
  have hquote : Tight ['"'] := tight_of_all (by decide)
  simpa [literal] using hquote.append (t := s) hquote (by simp) (by simp)

/-- What is put behind a quote that is read takes it back into no comment. -/
theorem mem_code_append {p : List Char} (h : '"' ∈ code (p ++ ['"'])) (t : List Char) :
    '"' ∈ code (p ++ '"' :: t) := by
  have hmore : p ++ '"' :: t = (p ++ ['"']) ++ t := by simp
  rcases hcut : cutAtWord? ['/', '/'] (p ++ ['"']) with _ | ⟨before, after⟩
  · have hfree : ¬ ['/', '/'] <:+: p := fun hmid =>
      not_isInfix_of_cutAtWord?_eq_none hcut (hmid.trans (List.prefix_append p ['"']).isInfix)
    rw [code, cutAtWord?_append (by decide) hfree]
    rcases cutAtWord? ['/', '/'] t with _ | ⟨before, after⟩
    · simp
    · simp
  · rw [code, hcut] at h
    rw [code, hmore, cutAtWord?_append_of_eq_some hcut]
    exact h

theorem value_literal (ids : Naming) (s : List Char) :
    value ids (literal s) = .ok (.const (.string (String.ofList s))) :=
  Draft.value_string ids s

variable {role : Role} {p q : List Char}

theorem Stands.head (h : Stands role p q) : ∀ c ∈ p.head?, isBlank c = false := by
  have hmark : ∀ {t u : List Char} {d : Char}, isBlank d = false →
      (∀ c ∈ t.head?, isBlank c = false) → ∀ c ∈ (t ++ d :: u).head?, isBlank c = false := by
    intro t u d hd ht c hc
    rcases t with _ | ⟨e, t⟩
    · exact Option.some.inj hc ▸ hd
    · exact ht c hc
  cases h with
  | initial head => exact hmark (by decide) head
  | argument => exact fun c hc => Option.some.inj hc ▸ by decide
  | default head => exact hmark (by decide) head

theorem Stands.last (h : Stands role p q) : ∃ t c, q = t ++ [c] ∧ isBlank c = false := by
  cases h with
  | initial => exact ⟨_, ';', rfl, by decide⟩
  | argument => exact ⟨_, ')', (List.append_assoc ..).symm, by decide⟩
  | default => exact ⟨_, ';', rfl, by decide⟩

/-- **The line of a literal is read as it stands**, without the blanks around it. -/
theorem Stands.bareText_eq (h : Stands role p q) (hcode : '"' ∈ code (p ++ ['"']))
    (hblanks : ∀ c ∈ a ++ b, isBlank c = true) (s : List Char) :
    bareText (a ++ (p ++ literal s ++ q) ++ b) = p ++ literal s ++ q := by
  have hquote : '"' ∈ code (p ++ literal s ++ q) := by
    rw [List.append_assoc]
    exact mem_code_append hcode _
  obtain ⟨ha, hb⟩ := List.forall_mem_append.mp hblanks
  rw [bareText_between _ ha hb, bareText, stripComment_eq, if_pos hquote]
  refine Tight.trim_eq ⟨fun c hc => ?_, fun c hc => ?_⟩
  · rcases p with _ | ⟨d, p⟩
    · exact Option.some.inj hc ▸ by decide
    · exact h.head c hc
  · obtain ⟨t, d, rfl, hd⟩ := h.last
    rw [← List.append_assoc, List.getLast?_concat] at hc
    exact Option.some.inj hc ▸ hd

theorem Stands.contents_eq (h : Stands role p q) (hcode : '"' ∈ code (p ++ ['"']))
    (hblanks : ∀ c ∈ a ++ b, isBlank c = true) (s : List Char) (after : List (List Char)) :
    contents ((a ++ (p ++ literal s ++ q) ++ b) :: after) =
      (p ++ literal s ++ q) :: contents after := by
  have hne : p ++ literal s ++ q ≠ [] := by simp [literal]
  rw [contents_cons, contents, List.map_singleton, h.bareText_eq hcode hblanks,
    List.filter_cons_of_pos (by simpa using hne)]
  rfl

/-! ### Arguments -/

theorem items_append_comma (a b : List Char) : items (a ++ ',' :: b) = items a ++ items b := by
  rw [items, List.splitOn_eq_splitOnP, List.splitOnP_append_cons a b (by simp), List.map_append,
    List.filter_append]
  rfl

theorem items_nil : items [] = [] := rfl

/-- A list that ends with a comma, or is empty, before another one. -/
theorem items_append_of_last (h : ∀ c ∈ a.getLast?, c = ',') (b : List Char) :
    items (a ++ b) = items a ++ items b := by
  rcases List.eq_nil_or_concat a with rfl | ⟨init, last, rfl⟩
  · rw [List.nil_append, items_nil, List.nil_append]
  · rw [List.concat_eq_append] at h ⊢
    obtain rfl : last = ',' := h last (by simp)
    rw [List.append_assoc, List.singleton_append, items_append_comma, items_append_comma, items_nil,
      List.append_nil]

/-- A list that begins with a comma, or is empty, behind another one. -/
theorem items_append_of_head (h : ∀ c ∈ b.head?, c = ',') (a : List Char) :
    items (a ++ b) = items a ++ items b := by
  rcases b with _ | ⟨c, b⟩
  · rw [List.append_nil, items_nil, List.append_nil]
  · obtain rfl : c = ',' := h c rfl
    have hnil := items_append_comma [] b
    rw [items_nil, List.nil_append, List.nil_append] at hnil
    rw [items_append_comma, hnil]

theorem items_eq_singleton (hcomma : ',' ∉ s) (hne : trim s ≠ []) : items s = [trim s] := by
  rw [items, List.splitOn_eq_singleton hcomma, List.map_singleton,
    List.filter_cons_of_pos (by simpa using hne)]
  rfl

/-- An item stands in its list. -/
theorem isInfix_of_mem_items (h : a ∈ items s) : a <:+: s := by
  obtain ⟨u, hu, rfl⟩ := List.mem_map.mp (List.mem_filter.mp h).1
  have hs : u <:+: [','].intercalate (s.splitOn ',') := isInfix_intercalate hu
  rw [List.intercalate_splitOn] at hs
  exact (trim_isInfix u).trans hs

/-- **Lists that are read item by item** agree if one item does. -/
theorem mapM_agree {α β ε : Type} {f : α → Except ε β} {S : β → β → Prop} {x y : α}
    (h : Agree S (f x) (f y)) (before after : List α) :
    Agree (DifferOnce S) ((before ++ x :: after).mapM f) ((before ++ y :: after).mapM f) := by
  induction before with
  | nil =>
    rw [List.nil_append, List.nil_append, List.mapM_cons, List.mapM_cons]
    exact h.bind fun _ _ h => .same_bind _ fun l => .ok (.here h l)
  | cons a before ih =>
    rw [List.cons_append, List.cons_append, List.mapM_cons, List.mapM_cons]
    exact .same_bind _ fun b => ih.bind fun _ _ h => .ok (.there b h)

section Argument

variable {key gap margin : List Char}

/-- An element with a literal as its value. -/
def elementText (key gap s margin : List Char) : List Char :=
  key ++ ('=' :: (gap ++ literal s)) ++ margin

theorem trim_elementText (hmargin : ∀ c ∈ margin, isBlank c = true) :
    trim (elementText key gap s margin) = trimStart key ++ '=' :: (gap ++ literal s) := by
  have hequals : Tight ['='] := tight_of_all (by decide)
  have htight : Tight ('=' :: (gap ++ literal s)) := by
    simpa using hequals.append (t := gap) (tight_literal s) (by simp) (by simp [literal])
  have hnil : trimEnd margin = [] := by
    rw [trimEnd, List.dropWhile_eq_nil_iff.mpr (by simpa using hmargin), List.reverse_nil]
  rw [elementText, trim_around htight (by simp), hnil, List.append_nil]

theorem element_elementText (hequals : '=' ∉ key) (hgap : ∀ c ∈ gap, isBlank c = true)
    (hmargin : ∀ c ∈ margin, isBlank c = true) :
    element ids (trim (elementText key gap s margin)) =
      .ok (String.ofList (trim (trimStart key)), .const (.string (String.ofList s))) := by
  have hkey : '=' ∉ trimStart key := fun hmem =>
    hequals ((List.dropWhile_suffix isBlank).subset hmem)
  have hvalue : trim (gap ++ literal s) = literal s :=
    (trim_blank_append hgap _).trans (tight_literal s).trim_eq
  rw [trim_elementText hmargin, element, cutAt?_append hkey]
  simp only [hvalue, value_literal]
  rfl

/-- The arguments of an annotation are read item by item. -/
theorem items_arguments {front back : List Char} (hfront : ∀ c ∈ front.getLast?, c = ',')
    (hback : ∀ c ∈ back.head?, c = ',') (hcomma : ',' ∉ key) (hs : ',' ∉ s)
    (hgap : ∀ c ∈ gap, isBlank c = true) (hmargin : ∀ c ∈ margin, isBlank c = true) :
    items (front ++ elementText key gap s margin ++ back) =
      items front ++ trim (elementText key gap s margin) :: items back := by
  have hfree : ∀ {t : List Char}, (∀ c ∈ t, isBlank c = true) → ',' ∉ t :=
    fun ht hmem => absurd (ht _ hmem) (by decide)
  have helement : ',' ∉ elementText key gap s margin := by
    simp [elementText, literal, hcomma, hs, hfree hgap, hfree hmargin]
  rw [items_append_of_head hback, items_append_of_last hfront,
    items_eq_singleton helement (by simp [trim_elementText hmargin]), List.append_assoc,
    List.singleton_append]

/-- **What is read of arguments in parentheses.** -/
theorem annotationLine_arguments {name : List Char} (hopen : '(' ∉ name) (arguments : List Char) :
    annotationLine ids ('@' :: (name ++ '(' :: (arguments ++ [')']))) =
      if (trim (trimStart name)).isEmpty then .error .missingAnnotationType
      else (items arguments).mapM (element ids) >>= fun elements =>
        .ok ⟨namedClass ids (trim (trimStart name)), NameMap.ofList elements⟩ := by
  have hname : '(' ∉ trimStart name := fun hmem =>
    hopen ((List.dropWhile_suffix isBlank).subset hmem)
  have hparen : Tight ['('] := tight_of_all (by decide)
  have hclose : Tight [')'] := tight_of_all (by decide)
  have htight : Tight ('(' :: (arguments ++ [')'])) := by
    simpa using hparen.append (t := arguments) hclose (by simp) (by simp)
  have htrim : trim (name ++ '(' :: (arguments ++ [')'])) =
      trimStart name ++ '(' :: (arguments ++ [')']) := by
    simpa [trimEnd] using trim_around htight (by simp) name []
  have hstart : ∀ body, ['@'].isPrefixOf? ('@' :: body) = some body := isPrefixOf?_append ['@']
  rw [annotationLine, hstart, Option.getD_some, htrim]
  simp only [cutAt?_append hname, isSuffixOf?_append]
  rfl

/-- **Annotations whose arguments differ in one literal.** -/
theorem annotationLine_differs {name front back s s' : List Char} (hopen : '(' ∉ name)
    (hfront : ∀ c ∈ front.getLast?, c = ',') (hback : ∀ c ∈ back.head?, c = ',')
    (hcomma : ',' ∉ key) (hequals : '=' ∉ key) (hgap : ∀ c ∈ gap, isBlank c = true)
    (hmargin : ∀ c ∈ margin, isBlank c = true) (hs : ',' ∉ s) (hs' : ',' ∉ s') :
    Agree (fun u u' => u = u' ∨ UseDiffers (Denotes s s') u u')
      (annotationLine ids ('@' :: (name ++ '(' ::
        (front ++ elementText key gap s margin ++ back ++ [')']))))
      (annotationLine ids ('@' :: (name ++ '(' ::
        (front ++ elementText key gap s' margin ++ back ++ [')'])))) := by
  rw [annotationLine_arguments hopen, annotationLine_arguments hopen]
  split_ifs
  · exact .error _ _
  · rw [items_arguments hfront hback hcomma hs hgap hmargin,
      items_arguments hfront hback hcomma hs' hgap hmargin]
    have helement : Agree (ElementDiffers (Denotes s s'))
        (element ids (trim (elementText key gap s margin)))
        (element ids (trim (elementText key gap s' margin))) := by
      rw [element_elementText hequals hgap hmargin, element_elementText hequals hgap hmargin]
      exact .ok ⟨rfl, rfl, rfl⟩
    refine (mapM_agree helement _ _).bind fun elements elements' h => .ok ?_
    rcases ofList_differs h with hsame | hdiffer
    · exact .inl (by rw [hsame])
    · exact .inr (.element _ hdiffer)

end Argument

/-! ### Initial values and defaults -/

/-- **A field is read without its initial value**, whatever literal that is. -/
theorem bodyless_initial {declaration gap margin : List Char} (hopen : '(' ∉ declaration)
    (hequals : '=' ∉ declaration) (hgap : ∀ c ∈ gap, isBlank c = true)
    (hmargin : ∀ c ∈ margin, isBlank c = true) (hs : '(' ∉ s)
    (annotations : List (AnnotationUse ClassType)) :
    bodyless ids annotations (declaration ++ '=' :: (gap ++ (literal s ++ margin))) = do
      let f ← field (declaration ++ ['='])
      return .field { f with annotations } := by
  have hfree : ∀ {t : List Char}, (∀ c ∈ t, isBlank c = true) → '(' ∉ t :=
    fun ht hmem => absurd (ht _ hmem) (by decide)
  have hparen : (declaration ++ '=' :: (gap ++ (literal s ++ margin))).contains '(' = false := by
    simp [literal, hopen, hs, hfree hgap, hfree hmargin]
  have hfield : field (declaration ++ '=' :: (gap ++ (literal s ++ margin))) =
      field (declaration ++ ['=']) := by
    rw [field, field, cutAt?_append hequals, cutAt?_append hequals]
    rfl
  rw [bodyless, hparen, hfield]
  rfl

/-- **A default is read as the constant that its literal denotes**, and the rest of the method as it
is read without the default. -/
theorem bodyless_default {signature parameters space gap margin : List Char}
    (hopen : '(' ∉ signature) (hclose : ')' ∉ parameters) (hspace : ∀ c ∈ space, isBlank c = true)
    (hgap : ∀ c ∈ gap, isBlank c = true) (hmargin : ∀ c ∈ margin, isBlank c = true)
    (annotations : List (AnnotationUse ClassType)) (s : List Char) :
    bodyless ids annotations (signature ++ '(' :: (parameters ++ ')' ::
      (space ++ ("default".toList ++ (gap ++ literal s)) ++ margin))) = do
        let m ← method ids (signature ++ '(' :: (parameters ++ [')']))
        return .method
          { m with annotations, defaultValue := some (.const (.string (String.ofList s))) } := by
  have hword : Tight "default".toList := tight_of_all (by decide)
  have htight : Tight ("default".toList ++ (gap ++ literal s)) := by
    simpa using hword.append (t := gap) (tight_literal s) (by decide) (by simp [literal])
  have hvalue : trim (gap ++ literal s) = literal s :=
    (trim_blank_append hgap _).trans (tight_literal s).trim_eq
  have hdefault : defaultClause ids (trim (space ++ ("default".toList ++ (gap ++ literal s)) ++
      margin)) = .ok (some (.const (.string (String.ofList s)))) := by
    rw [trim_append hspace htight hmargin, defaultClause, isPrefixOf?_append]
    simp only [hvalue, value_literal]
    rfl
  rw [bodyless, if_pos (by simp), method, method, cutAt?_append hopen, cutAt?_append hopen]
  simp only [cutAt?_append hclose, hdefault]
  rcases declaration signature with fault | ⟨flags, result, name⟩ <;> rfl

/-! ### Texts -/

theorem Role.Differs.imp {α β : Type} {D : α → α → Prop} {E : β → β → Prop} {f : α → β} {x y : α}
    (h : role.Differs D x y) (hDE : ∀ {x y}, D x y → E (f x) (f y)) :
    role.Differs E (f x) (f y) := by
  cases role with
  | initial => exact congrArg f h
  | argument => exact Or.imp (congrArg f) hDE h
  | default => exact hDE h

/-- A line that ends in a semicolon and is no annotation is a member without a body. -/
theorem members_step {t : List Char} (ht : t.head? ≠ some '@')
    (annotations : List (AnnotationUse ClassType)) :
    (Place.members annotations).step ids (t ++ [';']) =
      bodyless ids annotations t >>= fun m => .ok (some m, some (.members [])) := by
  have hat : ¬ ['@'].isPrefixOf (t ++ [';']) = true := by
    rcases t with _ | ⟨c, t⟩
    · decide
    · have hc : '@' ≠ c := fun h => ht (congrArg some h.symm)
      simp [List.isPrefixOf, hc]
  have hbrace : t ++ [';'] ≠ ['}'] := fun h => by
    have hlast := congrArg List.getLast? h
    simp at hlast
  rw [Place.step, if_neg hat, if_neg hbrace, isSuffixOf?_append]
  rfl

section Step

variable {s' : List Char}

theorem Stands.annotationLine_agree (h : Stands .argument p q) (ids : Naming) (hs : ',' ∉ s)
    (hs' : ',' ∉ s') :
    (∀ t, ['@'].isPrefixOf (p ++ t) = true) ∧
    Agree (fun u u' => u = u' ∨ UseDiffers (Denotes s s') u u')
      (annotationLine ids (p ++ literal s ++ q)) (annotationLine ids (p ++ literal s' ++ q)) := by
  cases h with
  | @argument name front key gap margin back not_open front_last back_head not_comma not_equals
      gap_blank margin_blank =>
    refine ⟨fun _ => rfl, ?_⟩
    have hline : ∀ s, '@' :: (name ++ '(' :: (front ++ (key ++ '=' :: gap))) ++ literal s ++
        (margin ++ (back ++ [')'])) =
        '@' :: (name ++ '(' :: (front ++ elementText key gap s margin ++ back ++ [')'])) :=
      fun s => by simp [elementText]
    rw [hline, hline]
    exact annotationLine_differs not_open front_last back_head not_comma not_equals gap_blank
      margin_blank hs hs'

/-- **The line of a literal between members**: its literal makes a difference to the member that it
is, or to the annotations of the next one. -/
theorem Stands.place_agree (h : Stands role p q) (hs : role.Keeps s) (hs' : role.Keeps s')
    (annotations : List (AnnotationUse ClassType)) :
    Agree (role.Differs (StepDiffers (Denotes s s')))
      ((Place.members annotations).step ids (p ++ literal s ++ q))
      ((Place.members annotations).step ids (p ++ literal s' ++ q)) := by
  have hhead : ∀ {t u : List Char} {c : Char}, c ≠ '@' → t.head? ≠ some '@' →
      (t ++ c :: u).head? ≠ some '@' := by
    intro t u c hc ht
    rcases t with _ | ⟨d, t⟩
    · exact fun h => hc (Option.some.inj h)
    · exact ht
  rcases role with _ | _ | _
  · cases h with
      | @initial declaration gap margin _ not_at not_open not_equals gap_blank margin_blank
    have hline : ∀ s : List Char, declaration ++ '=' :: gap ++ literal s ++ (margin ++ [';']) =
        declaration ++ '=' :: (gap ++ (literal s ++ margin)) ++ [';'] := fun s => by simp
    rw [hline, hline, members_step (hhead (by decide) not_at),
      members_step (hhead (by decide) not_at),
      bodyless_initial not_open not_equals gap_blank margin_blank hs,
      bodyless_initial not_open not_equals gap_blank margin_blank hs']
    exact .refl _
  · obtain ⟨hat, hline⟩ := h.annotationLine_agree ids hs hs'
    rw [Place.step, Place.step, if_pos (by simp [hat]), if_pos (by simp [hat])]
    refine hline.bind fun a a' h => .ok ?_
    exact h.imp (by rintro rfl; rfl) fun h =>
      .place (.members ((DifferOnce.here h []).append_left _))
  · cases h with
      | @default signature parameters space gap margin _ not_at not_open not_close space_blank
          gap_blank margin_blank
    have hline : ∀ s : List Char,
        signature ++ '(' :: (parameters ++ ')' :: (space ++ ("default".toList ++ gap))) ++
          literal s ++ (margin ++ [';']) =
        signature ++ '(' :: (parameters ++ ')' ::
          (space ++ ("default".toList ++ (gap ++ literal s)) ++ margin)) ++ [';'] :=
      fun s => by simp
    rw [hline, hline, members_step (hhead (by decide) not_at),
      members_step (hhead (by decide) not_at),
      bodyless_default not_open not_close space_blank gap_blank margin_blank,
      bodyless_default not_open not_close space_blank gap_blank margin_blank, bind_assoc,
      bind_assoc]
    exact .same_bind _ fun m =>
      .ok (.member (.method (.default { m with annotations } ⟨rfl, rfl⟩)) _)

/-- **The line of a literal, wherever it may stand.** -/
theorem Stands.step_agree (h : Stands role p q) (hs : role.Keeps s) (hs' : role.Keeps s')
    {st : Stage} (hmay : role.MayStand st) :
    Agree (role.Differs (StageDiffers (Denotes s s')))
      (st.step ids (p ++ literal s ++ q)) (st.step ids (p ++ literal s' ++ q)) := by
  have hbrace : ∀ s, p ++ literal s ++ q ≠ ['{'] := fun s heq => by
    have hlength := congrArg List.length heq
    simp [literal] at hlength
    omega
  rcases st with annotations | c | ⟨c, members, annotations | m | ⟨m, statements⟩⟩ | c
  · obtain rfl : role = .argument := by
      cases role <;> first | rfl | exact hmay.elim
    obtain ⟨hat, hline⟩ := h.annotationLine_agree ids hs hs'
    rw [Stage.step, Stage.step, if_pos (by simp [hat]), if_pos (by simp [hat])]
    refine hline.bind fun a a' h => .ok ?_
    exact h.imp (by rintro rfl; rfl) fun h => .head ((DifferOnce.here h []).append_left _)
  · rw [Stage.step, Stage.step, if_neg (hbrace s), if_neg (hbrace s')]
    exact .error _ _
  · exact (h.place_agree hs hs' annotations).bind fun _ _ h => .ok (h.imp (·.beyond c members))
  · rw [Stage.step, Stage.step, Place.step, Place.step, if_neg (hbrace s), if_neg (hbrace s')]
    exact .error _ _
  · cases h <;> exact hmay.elim
  · exact .error _ _

/-- **Contents that a line keeps together are opaque.** -/
theorem opaque_of_keeps (ids : Naming) (hs : role.Keeps s) (hs' : role.Keeps s') :
    Opaque ids role s s' := by
  intro text text' h
  cases h with | @intro before after a p q b stands hcode hblanks hmay htext htext'
  refine (Agree.mapError_iff (f := ParseError.fault) (g := ParseError.fault)).mp ?_
  rw [mapError_parse, mapError_parse, htext, htext', contents_append, contents_append,
    stands.contents_eq hcode hblanks, stands.contents_eq hcode hblanks, Stage.reach_append,
    Stage.reach_append, bind_assoc, bind_assoc]
  rcases hreach : Stage.start.reach ids (contents before) with fault | st
  · exact .error _ _
  · change Agree _ (st.reach ids _ >>= Stage.finish) (st.reach ids _ >>= Stage.finish)
    rw [Stage.reach_cons, Stage.reach_cons, bind_assoc, bind_assoc]
    refine (stands.step_agree hs hs' (hmay st hreach)).bind fun next next' h => ?_
    cases role with
    | initial =>
      obtain rfl : next = next' := h
      exact .refl _
    | argument =>
      rcases h with rfl | h
      · exact (Agree.refl _).imp fun _ _ => .inl
      · exact (h.complete _).imp fun _ _ => .inr
    | default => exact StageDiffers.complete h _

end Step

end Classpath.TextClass
