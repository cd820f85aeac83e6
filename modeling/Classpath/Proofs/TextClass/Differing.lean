import Classpath.Proofs.TextClass.Stages
import Classpath.Proofs.NameMap

/-!
# Classes that differ in one value

Two texts that write different values at one place are read along the same stages: what is read of
the one differs from what is read of the other in that value and in nothing else. The relations
below say so of each kind of thing that holds values, down from classes to the elements of
annotations, and a list of such things differs in one of them. There is one relation for the values
themselves, and nothing is asked of it.

One line may come between. An annotation keeps the last value that is given for a name, so two
annotations that are written with different values can be the same one.

* `Classpath.TextClass.Agree` – both results are accepted or neither is.
* `Classpath.TextClass.DifferOnce` – lists that differ in one place.
* `Classpath.TextClass.ClassDiffers` – classes that differ in one value.
* `Classpath.TextClass.StageDiffers.complete` – what follows does not take the difference away, and
  adds none.
-/

namespace Classpath.TextClass

/-! ### Results -/

/-- **Both results are accepted or neither is**, and what is accepted is related. -/
inductive Agree {ε α β : Type} (R : α → β → Prop) : Except ε α → Except ε β → Prop
  | ok {a : α} {b : β} (h : R a b) : Agree R (.ok a) (.ok b)
  | error (e e' : ε) : Agree R (.error e) (.error e')

namespace Agree

variable {ε ε' α β γ δ : Type} {R R' : α → β → Prop} {S : γ → δ → Prop}

theorem bind {x : Except ε α} {y : Except ε β} {f : α → Except ε γ} {g : β → Except ε δ}
    (h : Agree R x y) (hmore : ∀ a b, R a b → Agree S (f a) (g b)) :
    Agree S (x >>= f) (y >>= g) := by
  cases h with
  | ok h => exact hmore _ _ h
  | error e e' => exact .error e e'

theorem refl (x : Except ε α) : Agree (· = ·) x x := by
  rcases x with e | a
  · exact .error e e
  · exact .ok rfl

theorem imp {x : Except ε α} {y : Except ε β} (h : Agree R x y) (hR : ∀ a b, R a b → R' a b) :
    Agree R' x y := by
  cases h with
  | ok h => exact .ok (hR _ _ h)
  | error e e' => exact .error e e'

/-- What errors are called does not matter. -/
theorem mapError_iff {f g : ε → ε'} {x : Except ε α} {y : Except ε β} :
    Agree R (x.mapError f) (y.mapError g) ↔ Agree R x y := by
  constructor
  · intro h
    rcases x with e | a <;> rcases y with e' | b <;> cases h
    · exact .error e e'
    · exact .ok ‹_›
  · intro h
    cases h with
    | ok h => exact .ok h
    | error e e' => exact .error _ _

/-- One thing that is done to both. -/
theorem same_bind (x : Except ε γ) {f : γ → Except ε α} {g : γ → Except ε β}
    (h : ∀ c, Agree R (f c) (g c)) : Agree R (x >>= f) (x >>= g) :=
  (Agree.refl x).bind fun c _ hc => hc ▸ h c

end Agree

/-! ### Lists -/

/-- **Lists that differ in one place**, in related things. -/
inductive DifferOnce {α : Type} (R : α → α → Prop) : List α → List α → Prop
  | here {a b : α} (h : R a b) (l : List α) : DifferOnce R (a :: l) (b :: l)
  | there (a : α) {l l' : List α} (h : DifferOnce R l l') : DifferOnce R (a :: l) (a :: l')

namespace DifferOnce

variable {α : Type} {R : α → α → Prop} {l l' : List α}

theorem append_right (h : DifferOnce R l l') (m : List α) : DifferOnce R (l ++ m) (l' ++ m) := by
  induction h with
  | here h l => exact .here h (l ++ m)
  | there a _ ih => exact .there a ih

theorem append_left (h : DifferOnce R l l') (m : List α) : DifferOnce R (m ++ l) (m ++ l') := by
  induction m with
  | nil => exact h
  | cons a m ih => exact .there a ih

theorem isEmpty_eq_false (h : DifferOnce R l l') : l.isEmpty = false ∧ l'.isEmpty = false := by
  cases h <;> exact ⟨rfl, rfl⟩

theorem exists_mem (h : DifferOnce R l l') : ∃ a ∈ l, ∃ b ∈ l', R a b := by
  induction h with
  | here h => exact ⟨_, List.mem_cons_self .., _, List.mem_cons_self .., h⟩
  | there c _ ih =>
    obtain ⟨a, ha, b, hb, h⟩ := ih
    exact ⟨a, List.mem_cons_of_mem c ha, b, List.mem_cons_of_mem c hb, h⟩

end DifferOnce

/-! ### Values, annotations and members -/

section Relations

variable (R : ElementValue ClassType → ElementValue ClassType → Prop)

/-- Elements of one name with related values. -/
def ElementDiffers (p q : String × ElementValue ClassType) : Prop :=
  p.1 = q.1 ∧ R p.2 q.2

/-- Annotations that differ in one value. -/
inductive UseDiffers : AnnotationUse ClassType → AnnotationUse ClassType → Prop
  | element (type : ClassType) {elements elements' : List (String × ElementValue ClassType)}
      (h : DifferOnce (ElementDiffers R) elements elements') :
      UseDiffers ⟨type, elements⟩ ⟨type, elements'⟩

/-- Fields that differ in one value of an annotation. -/
inductive FieldDiffers : FieldInfo → FieldInfo → Prop
  | annotated (f : FieldInfo) {annotations annotations' : List (AnnotationUse ClassType)}
      (h : DifferOnce (UseDiffers R) annotations annotations') :
      FieldDiffers { f with annotations } { f with annotations := annotations' }

/-- Methods that differ in one value of an annotation, or in their default. -/
inductive MethodDiffers : MethodInfo → MethodInfo → Prop
  | annotated (m : MethodInfo) {annotations annotations' : List (AnnotationUse ClassType)}
      (h : DifferOnce (UseDiffers R) annotations annotations') :
      MethodDiffers { m with annotations } { m with annotations := annotations' }
  | default (m : MethodInfo) {v v' : ElementValue ClassType} (h : R v v') :
      MethodDiffers { m with defaultValue := some v } { m with defaultValue := some v' }

/-- Members that differ in one value. -/
inductive MemberDiffers : Member → Member → Prop
  | field {f f' : FieldInfo} (h : FieldDiffers R f f') : MemberDiffers (.field f) (.field f')
  | method {m m' : MethodInfo} (h : MethodDiffers R m m') : MemberDiffers (.method m) (.method m')

/-- **Classes that differ in one value**: an element of an annotation or a default. -/
inductive ClassDiffers : ClassInfo → ClassInfo → Prop
  | annotated (c : ClassInfo) {annotations annotations' : List (AnnotationUse ClassType)}
      (h : DifferOnce (UseDiffers R) annotations annotations') :
      ClassDiffers { c with annotations } { c with annotations := annotations' }
  | field (c : ClassInfo) {fields fields' : List FieldInfo}
      (h : DifferOnce (FieldDiffers R) fields fields') :
      ClassDiffers { c with fields } { c with fields := fields' }
  | method (c : ClassInfo) {methods methods' : List MethodInfo}
      (h : DifferOnce (MethodDiffers R) methods methods') :
      ClassDiffers { c with methods } { c with methods := methods' }

/-- Places in the body of a class that differ in one value of what the next lines belong to. -/
inductive PlaceDiffers : Place → Place → Prop
  | members {annotations annotations' : List (AnnotationUse ClassType)}
      (h : DifferOnce (UseDiffers R) annotations annotations') :
      PlaceDiffers (.members annotations) (.members annotations')
  | opening {m m' : MethodInfo} (h : MethodDiffers R m m') : PlaceDiffers (.opening m) (.opening m')
  | body {m m' : MethodInfo} (h : MethodDiffers R m m') (statements : List String) :
      PlaceDiffers (.body m statements) (.body m' statements)

/-- **Stages that differ in one value** of what was read. -/
inductive StageDiffers : Stage → Stage → Prop
  | head {annotations annotations' : List (AnnotationUse ClassType)}
      (h : DifferOnce (UseDiffers R) annotations annotations') :
      StageDiffers (.head annotations) (.head annotations')
  | opening (c : ClassInfo) {annotations annotations' : List (AnnotationUse ClassType)}
      (h : DifferOnce (UseDiffers R) annotations annotations') :
      StageDiffers (.opening { c with annotations })
        (.opening { c with annotations := annotations' })
  | declared (c : ClassInfo) {annotations annotations' : List (AnnotationUse ClassType)}
      (h : DifferOnce (UseDiffers R) annotations annotations') (members : List Member)
      (place : Place) : StageDiffers (.inside { c with annotations } members place)
        (.inside { c with annotations := annotations' } members place)
  | member (c : ClassInfo) {members members' : List Member}
      (h : DifferOnce (MemberDiffers R) members members') (place : Place) :
      StageDiffers (.inside c members place) (.inside c members' place)
  | place (c : ClassInfo) (members : List Member) {place place' : Place}
      (h : PlaceDiffers R place place') :
      StageDiffers (.inside c members place) (.inside c members place')
  | closed {c c' : ClassInfo} (h : ClassDiffers R c c') : StageDiffers (.closed c) (.closed c')

end Relations

variable {R : ElementValue ClassType → ElementValue ClassType → Prop} {ids : Naming}

/-! ### Maps by name -/

section NameMap

variable {m m' pairs pairs' : List (String × ElementValue ClassType)} {name : String}
  {v v' : ElementValue ClassType}

/-- A value that is put in differs as it did before. -/
theorem put_differs (h : R v v') (m : List (String × ElementValue ClassType)) :
    DifferOnce (ElementDiffers R) (NameMap.put name v m) (NameMap.put name v' m) := by
  induction m with
  | nil => exact .here ⟨rfl, h⟩ []
  | cons p m ih =>
    rw [NameMap.put, NameMap.put]
    split
    · exact .here ⟨rfl, h⟩ (p :: m)
    · exact .here ⟨rfl, h⟩ m
    · exact .there p ih

/-- Another value is put in at the same place, which may be the one of the difference. -/
theorem put_differs_of_differs (h : DifferOnce (ElementDiffers R) m m') :
    NameMap.put name v m = NameMap.put name v m' ∨
      DifferOnce (ElementDiffers R) (NameMap.put name v m) (NameMap.put name v m') := by
  induction h with
  | @here p q h m =>
    obtain ⟨n, w⟩ := p
    obtain ⟨n', w'⟩ := q
    obtain ⟨rfl : n = n', hw⟩ := h
    rw [NameMap.put, NameMap.put]
    split
    · exact .inr (.there _ (.here ⟨rfl, hw⟩ m))
    · exact .inl rfl
    · exact .inr (.here ⟨rfl, hw⟩ _)
  | there p h ih =>
    rw [NameMap.put, NameMap.put]
    split
    · exact .inr (.there _ (.there p h))
    · exact .inr (.there _ h)
    · exact ih.imp (congrArg (p :: ·)) (.there p)

theorem overlay_differs_of_differs (h : DifferOnce (ElementDiffers R) m m') :
    NameMap.overlay m pairs = NameMap.overlay m' pairs ∨
      DifferOnce (ElementDiffers R) (NameMap.overlay m pairs) (NameMap.overlay m' pairs) := by
  induction pairs generalizing m m' with
  | nil => exact .inr h
  | cons p pairs ih =>
    change NameMap.overlay (NameMap.put p.1 p.2 m) pairs =
        NameMap.overlay (NameMap.put p.1 p.2 m') pairs ∨
      DifferOnce (ElementDiffers R) (NameMap.overlay (NameMap.put p.1 p.2 m) pairs)
        (NameMap.overlay (NameMap.put p.1 p.2 m') pairs)
    have hput : NameMap.put p.1 p.2 m = NameMap.put p.1 p.2 m' ∨
        DifferOnce (ElementDiffers R) (NameMap.put p.1 p.2 m) (NameMap.put p.1 p.2 m') :=
      put_differs_of_differs h
    rcases hput with hsame | hdiffer
    · exact .inl (congrArg (NameMap.overlay · pairs) hsame)
    · exact ih hdiffer

/-- **Maps of pairs that differ in one value** differ in it, or are the same if a later pair has its
name. -/
theorem ofList_differs (h : DifferOnce (ElementDiffers R) pairs pairs') :
    NameMap.ofList pairs = NameMap.ofList pairs' ∨
      DifferOnce (ElementDiffers R) (NameMap.ofList pairs) (NameMap.ofList pairs') := by
  have hoverlay : ∀ m, NameMap.overlay m pairs = NameMap.overlay m pairs' ∨
      DifferOnce (ElementDiffers R) (NameMap.overlay m pairs) (NameMap.overlay m pairs') := by
    induction h with
    | @here p q h pairs =>
      obtain ⟨n, w⟩ := p
      obtain ⟨n', w'⟩ := q
      obtain ⟨rfl : n = n', hw⟩ := h
      exact fun m => overlay_differs_of_differs (put_differs hw m)
    | there p _ ih => exact fun m => ih (NameMap.put p.1 p.2 m)
  exact hoverlay []

end NameMap

/-! ### Stages -/

/-- **Members that differ in one value** make classes that do: a field differs or a method does. -/
theorem withMembers_differs (c : ClassInfo) {members members' : List Member}
    (h : DifferOnce (MemberDiffers R) members members') :
    ClassDiffers R (withMembers c members) (withMembers c members') := by
  have hparts : (DifferOnce (FieldDiffers R) (members.filterMap Member.field?)
        (members'.filterMap Member.field?) ∧
      members.filterMap Member.method? = members'.filterMap Member.method?) ∨
      members.filterMap Member.field? = members'.filterMap Member.field? ∧
        DifferOnce (MethodDiffers R) (members.filterMap Member.method?)
          (members'.filterMap Member.method?) := by
    induction h with
    | here h members =>
      cases h with
      | field h => exact .inl ⟨.here h _, rfl⟩
      | method h => exact .inr ⟨rfl, .here h _⟩
    | there m _ ih =>
      cases m with
      | field f => exact ih.imp (.imp_left (.there f)) (.imp_left (congrArg (f :: ·)))
      | method m => exact ih.imp (.imp_right (congrArg (m :: ·))) (.imp_right (.there m))
  rw [withMembers, withMembers]
  rcases hparts with ⟨hfields, hmethods⟩ | ⟨hfields, hmethods⟩
  · rw [hmethods]
    exact .field { c with methods := members'.filterMap Member.method? } hfields
  · rw [hfields]
    exact .method { c with fields := members'.filterMap Member.field? } hmethods

section Annotations

variable {annotations annotations' : List (AnnotationUse ClassType)}

theorem bodyless_differs (h : DifferOnce (UseDiffers R) annotations annotations')
    (t : List Char) :
    Agree (MemberDiffers R) (bodyless ids annotations t) (bodyless ids annotations' t) := by
  rw [bodyless, bodyless]
  split_ifs
  · exact .same_bind _ fun m => .ok (.method (.annotated m h))
  · exact .same_bind _ fun f => .ok (.field (.annotated f h))

theorem beginMethod_differs (h : DifferOnce (UseDiffers R) annotations annotations')
    (t : List Char) :
    Agree (PlaceDiffers R) (beginMethod ids annotations t) (beginMethod ids annotations' t) := by
  rw [beginMethod, beginMethod]
  refine .same_bind _ fun m => ?_
  split_ifs
  · exact .error _ _
  · exact .ok (.body (.annotated m h) [])
  · exact .ok (.opening (.annotated m h))

end Annotations

/-- A method that differs in one value still does so with a body. -/
theorem MethodDiffers.withBody {m m' : MethodInfo} (h : MethodDiffers R m m') (body : Option Body) :
    MethodDiffers R { m with body } { m' with body } := by
  cases h with
  | annotated m h => exact .annotated { m with body } h
  | default m h => exact .default { m with body } h

/-- What a line in the body of a class does, with a difference in the member that it ends or in
what the next line belongs to. -/
inductive StepDiffers (R : ElementValue ClassType → ElementValue ClassType → Prop) :
    Option Member × Option Place → Option Member × Option Place → Prop
  | member {m m' : Member} (h : MemberDiffers R m m') (place : Place) :
      StepDiffers R (some m, some place) (some m', some place)
  | place {place place' : Place} (h : PlaceDiffers R place place') :
      StepDiffers R (none, some place) (none, some place')

theorem PlaceDiffers.step {place place' : Place} (h : PlaceDiffers R place place')
    (t : List Char) : Agree (StepDiffers R) (place.step ids t) (place'.step ids t) := by
  cases h with
  | members h =>
    rw [Place.step, Place.step]
    split_ifs with hat hbrace hempty hempty' hempty'
    · exact .same_bind _ fun a => .ok (.place (.members (h.append_right [a])))
    · rw [h.isEmpty_eq_false.1] at hempty
      cases hempty
    · rw [h.isEmpty_eq_false.1] at hempty
      cases hempty
    · rw [h.isEmpty_eq_false.2] at hempty'
      cases hempty'
    · exact .error _ _
    · rcases [';'].isSuffixOf? t with _ | s
      · exact (beginMethod_differs h t).bind fun _ _ h => .ok (.place h)
      · exact (bodyless_differs h s).bind fun _ _ h => .ok (.member h _)
  | opening h =>
    rw [Place.step, Place.step]
    split_ifs
    · exact .ok (.place (.body h []))
    · exact .error _ _
  | body h statements =>
    rw [Place.step, Place.step]
    split_ifs
    · exact .ok (.member (.method (h.withBody _)) _)
    · exact .ok (.place (.body h _))

theorem StepDiffers.beyond {r r' : Option Member × Option Place} (h : StepDiffers R r r')
    (c : ClassInfo) (members : List Member) :
    StageDiffers R (.beyond c members r) (.beyond c members r') := by
  cases h with
  | @member m m' h place => exact .member c ((DifferOnce.here h []).append_left members) place
  | place h => exact .place c _ h

/-- **One line keeps a difference**: it is accepted after both stages or after neither. -/
theorem StageDiffers.step {st st' : Stage} (h : StageDiffers R st st') (t : List Char) :
    Agree (StageDiffers R) (st.step ids t) (st'.step ids t) := by
  cases h with
  | head h =>
    rw [Stage.step, Stage.step]
    split_ifs
    · exact .same_bind _ fun a => .ok (.head (h.append_right [a]))
    · refine .same_bind _ fun c => .ok ?_
      rcases (splitBrace t).2 with _ | _
      · exact .opening c h
      · exact .declared c h [] (.members [])
  | opening c h =>
    rw [Stage.step, Stage.step]
    split_ifs
    · exact .ok (.declared c h [] (.members []))
    · exact .error _ _
  | declared c h members place =>
    rw [Stage.step, Stage.step]
    refine .same_bind _ fun r => .ok ?_
    rcases r with ⟨m, _ | next⟩
    · exact .closed (.annotated (withMembers c (members ++ m.toList)) h)
    · exact .declared c h _ next
  | member c h place =>
    rw [Stage.step, Stage.step]
    refine .same_bind _ fun r => .ok ?_
    rcases r with ⟨m, _ | next⟩
    · exact .closed (withMembers_differs c (h.append_right m.toList))
    · exact .member c (h.append_right m.toList) next
  | place c members h =>
    rw [Stage.step, Stage.step]
    exact (h.step t).bind fun _ _ h => .ok (h.beyond c members)
  | closed h => exact .error _ _

/-- **What follows keeps a difference**: the lines that are left, and the end of the text. -/
theorem StageDiffers.complete {st st' : Stage} (h : StageDiffers R st st')
    (ts : List (List Char)) :
    Agree (ClassDiffers R) (st.reach ids ts >>= Stage.finish)
      (st'.reach ids ts >>= Stage.finish) := by
  have hreach : Agree (StageDiffers R) (st.reach ids ts) (st'.reach ids ts) := by
    induction ts generalizing st st' with
    | nil => exact .ok h
    | cons t ts ih =>
      rw [Stage.reach_cons, Stage.reach_cons]
      exact (h.step t).bind fun _ _ h => ih h
  refine hreach.bind fun _ _ h => ?_
  cases h with
  | closed h => exact .ok h
  | head | opening | declared | member | place => exact .error _ _

end Classpath.TextClass
