import Classpath.Proofs.TextClass.Edits

/-!
# How far a text is read

A text class is read from its first line to its last one, and each line takes the reader from one
stage to the next: before the header, before the opening brace, inside of the class, behind it. What
a text writes is what the stage after its last line stands for. The reader of a whole text goes down
into the body of a class and comes back with its members; here the members that were read are part
of the stage, so that the lines before and behind a line that is looked at can be read on their own.

* `Classpath.TextClass.Stage.step` – what one line does.
* `Classpath.TextClass.Stage.read`, `Classpath.TextClass.Stage.reach` – what some lines do, with
  their numbers and without.
* `Classpath.TextClass.parseLines_eq_complete`, `Classpath.TextClass.mapError_parse` – a text is
  read stage by stage.
* `Classpath.TextClass.of_parse_eq_ok` – the header of a text that is accepted.
-/

namespace Classpath.TextClass

/-! ### Results that are used -/

/-- What is accepted in two steps is accepted in each of them. -/
theorem exists_of_bind_eq_ok {ε α β : Type} {x : Except ε α} {f : α → Except ε β} {b : β}
    (h : x >>= f = .ok b) : ∃ a, x = .ok a ∧ f a = .ok b := by
  rcases x with e | a
  · cases h
  · exact ⟨a, rfl, h⟩

theorem eq_ok_of_check {α : Type} {l : Line} {x : Except Fault α} {a : α} (h : l.check x = .ok a) :
    x = .ok a := by
  rcases x with fault | a'
  · cases h
  · exact congrArg Except.ok (Except.ok.inj h)

/-! ### Stages -/

/-- How far a text is read. -/
inductive Stage where
  /-- Before the header, after some annotations. -/
  | head (annotations : List (AnnotationUse ClassType))
  /-- After the header of a class whose body must begin. -/
  | opening (c : ClassInfo)
  /-- In the body of a class, after some members. -/
  | inside (c : ClassInfo) (members : List Member) (place : Place)
  /-- After the end of a class. -/
  | closed (c : ClassInfo)

/-- A class with members. -/
def withMembers (c : ClassInfo) (members : List Member) : ClassInfo :=
  { c with
    fields := members.filterMap Member.field?
    methods := members.filterMap Member.method? }

/-- What a line in the body of a class does: the member that ends with it, if one does, and where
the next line stands. No line stands behind the end of the body. -/
def Place.step (ids : Naming) : Place → List Char → Except Fault (Option Member × Option Place)
  | .members annotations, t =>
    if ['@'].isPrefixOf t then do
      return (none, some (.members (annotations ++ [← annotationLine ids t])))
    else if t = ['}'] then
      if annotations.isEmpty then .ok (none, none) else .error .strayAnnotations
    else
      match [';'].isSuffixOf? t with
      | some s => do return (some (← bodyless ids annotations s), some (.members []))
      | none => do return (none, some (← beginMethod ids annotations t))
  | .opening m, t =>
    if t = ['{'] then .ok (none, some (.body m [])) else .error (.expectedBrace (some t))
  | .body m statements, t =>
    if t = ['}'] then
      .ok (some (.method { m with body := some (.statements statements.reverse) }),
        some (.members []))
    else .ok (none, some (.body m (statement t :: statements)))

namespace Stage

/-- The stage at which a text begins. -/
def start : Stage :=
  head []

/-- The stage behind a line in the body of a class. -/
def beyond (c : ClassInfo) (members : List Member) : Option Member × Option Place → Stage
  | (m, some place) => inside c (members ++ m.toList) place
  | (m, none) => closed (withMembers c (members ++ m.toList))

/-- The stage behind a header, which may hold the opening brace. -/
def behindHeader (c : ClassInfo) (opened : Bool) : Stage :=
  if opened then inside c [] (.members []) else opening c

/-- **What one line does.** -/
def step (ids : Naming) : Stage → List Char → Except Fault Stage
  | head annotations, t =>
    if ['@'].isPrefixOf t then do return head (annotations ++ [← annotationLine ids t])
    else do
      let c ← header ids (splitBrace t).1
      return behindHeader { c with annotations } (splitBrace t).2
  | opening c, t =>
    if t = ['{'] then .ok (inside c [] (.members [])) else .error (.expectedBrace (some t))
  | inside c members place, t => do return beyond c members (← place.step ids t)
  | closed _, _ => .error .trailingContent

/-- What is read at a stage, if no line follows. -/
def finish : Stage → Except Fault ClassInfo
  | head _ => .error .missingHeader
  | opening _ => .error (.expectedBrace none)
  | inside _ _ place => .error place.fault
  | closed c => .ok c

/-- **What some lines do**, one after the other. -/
def read (ids : Naming) (st : Stage) (ls : List Line) : Except ParseError Stage :=
  ls.foldlM (fun st l => l.check (st.step ids l.text)) st

/-- What lines of some texts do. -/
def reach (ids : Naming) (st : Stage) (ts : List (List Char)) : Except Fault Stage :=
  ts.foldlM (step ids) st

variable {ids : Naming} {st : Stage}

theorem read_cons (l : Line) (ls : List Line) :
    st.read ids (l :: ls) = l.check (st.step ids l.text) >>= fun st => st.read ids ls :=
  List.foldlM_cons

theorem reach_cons (t : List Char) (ts : List (List Char)) :
    st.reach ids (t :: ts) = st.step ids t >>= fun st => st.reach ids ts :=
  List.foldlM_cons

theorem reach_append (ts us : List (List Char)) :
    st.reach ids (ts ++ us) = st.reach ids ts >>= fun st => st.reach ids us :=
  List.foldlM_append

/-- The numbers of lines only tell where a fault is. -/
theorem mapError_read (ls : List Line) :
    (st.read ids ls).mapError (·.fault) = st.reach ids (ls.map (·.text)) := by
  induction ls generalizing st with
  | nil => rfl
  | cons l ls ih =>
    rw [read_cons, List.map_cons, reach_cons]
    rcases st.step ids l.text with fault | next
    · rfl
    · exact ih

end Stage

variable {ids : Naming} {last : Nat} {ls : List Line}

/-! ### Reading stage by stage -/

/-- What is read from a stage to the end of a text. -/
def Stage.complete (ids : Naming) (last : Nat) (st : Stage) (ls : List Line) :
    Except ParseError ClassInfo :=
  st.read ids ls >>= fun st => st.finish.mapError (⟨last, ·⟩)

namespace Stage

theorem complete_cons (st : Stage) (l : Line) : st.complete ids last (l :: ls) =
    l.check (st.step ids l.text) >>= fun st => st.complete ids last ls := by
  rw [complete, read_cons, bind_assoc]
  rfl

theorem complete_closed (c : ClassInfo) : (closed c).complete ids last ls =
    match ls with
    | [] => .ok c
    | l :: _ => .error ⟨l.number, .trailingContent⟩ := by
  cases ls <;> rfl

/-- **The body of a class is read stage by stage**: its members, and what stands behind it. -/
theorem complete_inside (c : ClassInfo) (members : List Member) (place : Place) :
    (inside c members place).complete ids last ls =
      readMembers ids last place ls >>= fun r =>
        (closed (withMembers c (members ++ r.1))).complete ids last r.2 := by
  induction ls generalizing members place with
  | nil =>
    rw [readMembers]
    rfl
  | cons l ls ih =>
    -- a line that ends no member, and one that ends one
    have hnone : ∀ next, (beyond c members (none, some next)).complete ids last ls =
        readMembers ids last next ls >>= fun r =>
          (closed (withMembers c (members ++ r.1))).complete ids last r.2 := by
      intro next
      rw [beyond, Option.toList_none, List.append_nil, ih]
    have hsome : ∀ m next, (beyond c members (some m, some next)).complete ids last ls =
        readMembers ids last next ls >>= fun r =>
          (closed (withMembers c (members ++ m :: r.1))).complete ids last r.2 := by
      intro m next
      rw [beyond, Option.toList_some, ih]
      simp only [List.append_assoc, List.singleton_append]
    have hmember : ∀ m next, (readMembers ids last next ls >>= fun r =>
          (closed (withMembers c (members ++ m :: r.1))).complete ids last r.2) =
        (readMembers ids last next ls >>= fun r => Except.ok (m :: r.1, r.2)) >>= fun r =>
          (closed (withMembers c (members ++ r.1))).complete ids last r.2 := by
      intro m next
      rw [bind_assoc]
      rfl
    rw [complete_cons]
    rcases place with annotations | m | ⟨m, statements⟩
    · rw [step, Place.step, readMembers]
      split_ifs
      · rcases annotationLine ids l.text with fault | a
        · rfl
        · exact hnone (.members (annotations ++ [a]))
      · change (closed (withMembers c (members ++ []))).complete ids last ls = _
        rfl
      · rfl
      · rcases [';'].isSuffixOf? l.text with _ | s
        · simp only
          rcases beginMethod ids annotations l.text with fault | next
          · rfl
          · exact hnone next
        · simp only
          rcases bodyless ids annotations s with fault | m
          · rfl
          · exact (hsome m (.members [])).trans (hmember m (.members []))
    · rw [step, Place.step, readMembers]
      split_ifs
      · exact hnone (.body m [])
      · rfl
    · rw [step, Place.step, readMembers]
      split_ifs
      · exact (hsome _ (.members [])).trans (hmember _ (.members []))
      · exact hnone (.body m (statement l.text :: statements))

/-- The opening brace stands at the end of the header or on the next line. -/
theorem complete_behindHeader (c : ClassInfo) (opened : Bool) :
    (behindHeader c opened).complete ids last ls =
      readBrace last opened ls >>= fun ls =>
        (inside c [] (.members [])).complete ids last ls := by
  rcases opened with _ | _
  · rcases ls with _ | ⟨l, ls⟩
    · rfl
    · change (opening c).complete ids last (l :: ls) = _
      rw [complete_cons, step, readBrace, if_neg Bool.false_ne_true]
      split_ifs <;> rfl
  · rfl

/-- What is read from the header on. -/
def completeHeader (ids : Naming) (last : Nat) (annotations : List (AnnotationUse ClassType)) :
    List Line → Except ParseError ClassInfo
  | [] => .error ⟨last, .missingHeader⟩
  | l :: ls => do
    let c ← l.check (header ids (splitBrace l.text).1)
    (behindHeader { c with annotations } (splitBrace l.text).2).complete ids last ls

/-- **What stands before the body of a class is read stage by stage**: annotations and the
header. -/
theorem complete_head (annotations : List (AnnotationUse ClassType)) :
    (head annotations).complete ids last ls =
      readAnnotations ids ls >>= fun r => completeHeader ids last (annotations ++ r.1) r.2 := by
  induction ls generalizing annotations with
  | nil => rfl
  | cons l ls ih =>
    rw [complete_cons, step, readAnnotations]
    by_cases hat : ['@'].isPrefixOf l.text
    · rw [if_pos hat, if_pos hat]
      rcases annotationLine ids l.text with fault | a
      · rfl
      · refine (ih (annotations ++ [a])).trans ?_
        simp only [List.append_assoc, List.singleton_append]
        rcases readAnnotations ids ls with e | r <;> rfl
    · rw [if_neg hat, if_neg hat]
      refine Eq.trans ?_ (congrArg (completeHeader ids last · (l :: ls))
        (List.append_nil annotations)).symm
      rw [completeHeader]
      rcases header ids (splitBrace l.text).1 with fault | c <;> rfl

end Stage

/-- **A text is read stage by stage.** -/
theorem parseLines_eq_complete (ls : List Line) :
    parseLines ids ls = Stage.start.complete ids (lastNumber ls) ls := by
  rw [Stage.start, Stage.complete_head, parseLines]
  rcases readAnnotations ids ls with e | ⟨annotations, _ | ⟨l, rest⟩⟩
  · rfl
  · rfl
  · change (do
      let c ← l.check (header ids (splitBrace l.text).1)
      let rest ← readBrace (lastNumber ls) (splitBrace l.text).2 rest
      let r ← readMembers ids (lastNumber ls) (.members []) rest
      match r.2 with
      | [] => Except.ok (withMembers { c with annotations } r.1)
      | l :: _ => .error ⟨l.number, .trailingContent⟩) =
      Stage.completeHeader ids (lastNumber ls) annotations (l :: rest)
    simp only [Stage.completeHeader, Stage.complete_behindHeader, Stage.complete_inside,
      Stage.complete_closed]
    rfl

/-- **What is read of a text, without the numbers of its lines**, depends on what counts of them. -/
theorem mapError_parse (ids : Naming) (s : String) :
    (parse ids s).mapError (·.fault) =
      Stage.start.reach ids (contents (pieces s)) >>= Stage.finish := by
  rw [parse, parseLines_eq_complete, pieces, ← map_text_significantLines_eq, ← Stage.mapError_read,
    Stage.complete]
  rcases Stage.start.read ids (significantLines s.toList) with e | st
  · rfl
  · change (st.finish.mapError _).mapError _ = st.finish
    rcases st.finish with fault | c <;> rfl

/-! ### The header of a text -/

/-- The header of a text: its first line that is no annotation, without the brace at its end. -/
def headerText? (s : String) : Option (List Char) :=
  ((contents (pieces s)).dropWhile (['@'].isPrefixOf ·)).head?.map fun t => (splitBrace t).1

/-- Annotations are read up to the first other line. -/
theorem map_text_of_readAnnotations {annotations : List (AnnotationUse ClassType)}
    {rest : List Line} (h : readAnnotations ids ls = .ok (annotations, rest)) :
    rest.map (·.text) = (ls.map (·.text)).dropWhile (['@'].isPrefixOf ·) := by
  induction ls generalizing annotations with
  | nil =>
    obtain ⟨-, rfl⟩ := Prod.mk.inj (Except.ok.inj h)
    rfl
  | cons l ls ih =>
    rw [readAnnotations] at h
    split_ifs at h with hat
    · rcases hline : annotationLine ids l.text with fault | a
      · rw [hline] at h
        cases h
      · rcases hmore : readAnnotations ids ls with e | ⟨more, after⟩
        · rw [hline, hmore] at h
          cases h
        · rw [hline, hmore] at h
          obtain ⟨-, rfl⟩ := Prod.mk.inj (Except.ok.inj h)
          rw [ih hmore, List.map_cons, List.dropWhile_cons_of_pos hat]
    · obtain ⟨-, rfl⟩ := Prod.mk.inj (Except.ok.inj h)
      rw [List.map_cons, List.dropWhile_cons_of_neg hat]

/-- **The class of a text that is accepted is the one that its header declares**, with annotations
and members. -/
theorem of_parse_eq_ok {s : String} {c : ClassInfo} (h : parse ids s = .ok c) :
    ∃ t declared, headerText? s = some t ∧ header ids t = .ok declared ∧
      ∃ annotations members, c = withMembers { declared with annotations } members := by
  rw [parse, parseLines_eq_complete, Stage.start, Stage.complete_head] at h
  obtain ⟨⟨annotations, ls⟩, hannotations, h⟩ := exists_of_bind_eq_ok h
  have htexts := map_text_of_readAnnotations hannotations
  rw [map_text_significantLines_eq] at htexts
  rcases ls with _ | ⟨l, rest⟩
  · cases h
  · obtain ⟨declared, hheader, h⟩ := exists_of_bind_eq_ok h
    have hdeclared := eq_ok_of_check hheader
    rw [Stage.complete_behindHeader] at h
    obtain ⟨inside, -, h⟩ := exists_of_bind_eq_ok h
    rw [Stage.complete_inside] at h
    obtain ⟨⟨members, after⟩, -, h⟩ := exists_of_bind_eq_ok h
    have htext : headerText? s = some (splitBrace l.text).1 := by
      rw [headerText?, pieces, ← htexts]
      rfl
    refine ⟨_, declared, htext, hdeclared, annotations, members, ?_⟩
    rcases after with _ | ⟨l', after⟩
    · exact (Except.ok.inj h).symm
    · cases h

end Classpath.TextClass
