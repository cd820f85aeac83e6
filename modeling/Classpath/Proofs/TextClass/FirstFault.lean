import Classpath.Proofs.TextClass.Stages

/-!
# The first line at fault

A text that writes no class is reported with one of its lines. That line is where the text goes
wrong: some text that is accepted starts with the lines before it, and every text that starts with
these and with the line itself is reported with the same fault at the same line, whatever follows.
The other texts that write no class only end too early. They are reported with their last line, and
with more lines they are accepted.

Both come from reading stage by stage. What a line does depends on the stage that the lines before it
lead to, and on nothing behind it (`Classpath.TextClass.Stage.read_counted_eq_error`). And no stage
is a dead end: a few lines lead from each of them to the end of a class
(`Classpath.TextClass.Stage.exists_completion`).

* `Classpath.TextClass.CountsAt`, `Classpath.TextClass.EndsAt` – the lines that count, by number, and
  the last of them.
* `Classpath.TextClass.RunsOut` – texts that end too early.
* `Classpath.TextClass.Completable` – lines that a text that is accepted starts with.
* `Classpath.TextClass.parse_error_first` – the line that is reported is the first one at fault.
-/

namespace Classpath.TextClass

variable {ids : Naming} {line : List Char} {rows before : List (List Char)} {n : Nat}

/-! ### The numbers of lines -/

/-- **A line that counts**: something is left of the line `n` without its comment and blanks. The
first line has the number 1. -/
def CountsAt (rows : List (List Char)) (n : Nat) : Prop :=
  ∃ i line, rows[i]? = some line ∧ n = i + 1 ∧ bareText line ≠ []

/-- **The last line that counts**, or the line 1 if none does. -/
def EndsAt (rows : List (List Char)) (n : Nat) : Prop :=
  (CountsAt rows n ∧ ∀ m, CountsAt rows m → m ≤ n) ∨ (∀ m, ¬ CountsAt rows m) ∧ n = 1

theorem CountsAt.le_length (h : CountsAt rows n) : n ≤ rows.length := by
  obtain ⟨i, line, hi, rfl, -⟩ := h
  exact (List.getElem?_eq_some_iff.mp hi).1

theorem countsAt_length (before after : List (List Char)) (h : bareText line ≠ []) :
    CountsAt (before ++ line :: after) (before.length + 1) :=
  ⟨before.length, line, by simp, rfl, h⟩

/-- A line at the end counts if something is left of it. -/
theorem countsAt_concat : CountsAt (rows ++ [line]) n ↔
    CountsAt rows n ∨ n = rows.length + 1 ∧ bareText line ≠ [] := by
  constructor
  · rintro ⟨i, line', hi, rfl, hline⟩
    rcases Nat.lt_or_ge i rows.length with hlt | hge
    · exact .inl ⟨i, line', by rwa [List.getElem?_append_left hlt] at hi, rfl, hline⟩
    · rw [List.getElem?_append_right hge, List.getElem?_singleton] at hi
      split at hi
      · obtain rfl := Option.some.inj hi
        exact .inr ⟨by omega, hline⟩
      · cases hi
  · rintro (⟨i, line', hi, rfl, hline⟩ | ⟨rfl, hline⟩)
    · refine ⟨i, line', ?_, rfl, hline⟩
      rwa [List.getElem?_append_left (List.getElem?_eq_some_iff.mp hi).1]
    · exact countsAt_length rows [] hline

theorem counted_concat (h : bareText line ≠ []) :
    counted n (rows ++ [line]) = counted n rows ++ [⟨n + rows.length, bareText line⟩] := by
  rw [counted_append, counted_cons_of_ne_nil h]
  rfl

/-- **The last number of a text is that of its last line that counts.** -/
theorem endsAt_lastNumber (rows : List (List Char)) : EndsAt rows (lastNumber (counted 1 rows)) := by
  induction rows using List.reverseRecOn with
  | nil => exact .inr ⟨fun m ⟨i, line, hi, _⟩ => by simp at hi, rfl⟩
  | append_singleton rows line ih =>
    by_cases hline : bareText line = []
    · have hsame : counted 1 (rows ++ [line]) = counted 1 rows := by
        rw [counted_append, counted_cons_of_eq_nil hline]
        exact List.append_nil _
      simpa [EndsAt, countsAt_concat, hline, hsame] using ih
    · have hlast : lastNumber (counted 1 (rows ++ [line])) = rows.length + 1 := by
        rw [counted_concat hline, lastNumber, List.getLast?_concat]
        exact Nat.add_comm _ _
      rw [hlast]
      refine .inl ⟨countsAt_length rows [] hline, fun m hm => ?_⟩
      rcases countsAt_concat.mp hm with hm | ⟨rfl, -⟩
      · exact hm.le_length.trans (Nat.le_succ _)
      · exact le_rfl

/-! ### Lines at fault -/

namespace Stage

variable {st st' : Stage} {e : ParseError} {fault : Fault}

theorem read_append (ls more : List Line) :
    st.read ids (ls ++ more) = st.read ids ls >>= fun st => st.read ids more :=
  List.foldlM_append

/-- **A fault is that of one line**, at the stage that the lines before it lead to. -/
theorem read_counted_eq_error (h : st.read ids (counted n rows) = .error e) :
    ∃ before line after st', rows = before ++ line :: after ∧
      st.read ids (counted n before) = .ok st' ∧ bareText line ≠ [] ∧
      st'.step ids (bareText line) = .error e.fault ∧ e.line = n + before.length := by
  induction rows generalizing n st with
  | nil => cases h
  | cons line rows ih =>
    by_cases hline : bareText line = []
    · have hskip : ∀ rows, counted n (line :: rows) = counted (n + 1) rows :=
        fun _ => counted_cons_of_eq_nil hline
      rw [hskip] at h
      obtain ⟨before, line', after, st', rfl, hread, hline', hstep, hnumber⟩ := ih h
      refine ⟨line :: before, line', after, st', rfl, by rwa [hskip], hline', hstep, ?_⟩
      rw [hnumber, List.length_cons]
      omega
    · have hcount : ∀ rows, counted n (line :: rows) = ⟨n, bareText line⟩ :: counted (n + 1) rows :=
        fun _ => counted_cons_of_ne_nil hline
      rw [hcount, read_cons] at h
      rcases hfirst : st.step ids (bareText line) with fault | next
      · rw [hfirst] at h
        obtain rfl := Except.error.inj h
        exact ⟨[], line, rows, st, rfl, rfl, hline, hfirst, rfl⟩
      · rw [hfirst] at h
        obtain ⟨before, line', after, st', rfl, hread, hline', hstep, hnumber⟩ := ih h
        refine ⟨line :: before, line', after, st', rfl, ?_, hline', hstep, ?_⟩
        · rw [hcount, read_cons, hfirst]
          exact hread
        · rw [hnumber, List.length_cons]
          omega

/-- **What stands behind a line at fault is not read.** -/
theorem read_counted_of_step (hread : st.read ids (counted n before) = .ok st')
    (hline : bareText line ≠ []) (hstep : st'.step ids (bareText line) = .error fault)
    (after : List (List Char)) :
    st.read ids (counted n (before ++ line :: after)) = .error ⟨n + before.length, fault⟩ := by
  rw [counted_append, counted_cons_of_ne_nil hline, read_append, hread]
  change st'.read ids (⟨n + before.length, bareText line⟩ :: _) = _
  rw [read_cons, hstep]
  rfl

/-- **No stage is a dead end**: with a few more lines the class ends. -/
theorem exists_completion (ids : Naming) (st : Stage) : ∃ more c, (∀ line ∈ more, '\n' ∉ line) ∧
    st.reach ids (contents more) = .ok (closed c) := by
  rcases st with annotations | c | ⟨c, members, annotations | method | ⟨method, statements⟩⟩ | c
  · exact ⟨["class A \x7b".toList, ['}']], _, by decide, rfl⟩
  · exact ⟨[['{'], ['}']], _, by decide, rfl⟩
  -- annotations may be waiting for a member
  · exact ⟨["int x;".toList, ['}']], _, by decide, rfl⟩
  · exact ⟨[['{'], ['}'], ['}']], _, by decide, rfl⟩
  · exact ⟨[['}'], ['}']], _, by decide, rfl⟩
  · exact ⟨[], c, by simp, rfl⟩

end Stage

/-! ### Texts that write no class -/

/-- A text is read to its end, or to its first line at fault. -/
theorem parse_eq_read (ids : Naming) (s : String) :
    parse ids s = Stage.start.read ids (counted 1 (lines s.toList)) >>= fun st =>
      st.finish.mapError (⟨lastNumber (counted 1 (lines s.toList)), ·⟩) :=
  parseLines_eq_complete _

/-- **Running out of lines**: the text is read to its end, and the stage there asks for a line. -/
def RunsOut (ids : Naming) (s : String) (fault : Fault) : Prop :=
  ∃ st, Stage.start.read ids (significantLines s.toList) = .ok st ∧ st.finish = .error fault

/-- **Lines that can be completed**: a text that is accepted starts with them. -/
def Completable (ids : Naming) (rows : List (List Char)) : Prop :=
  ∃ t c, rows <+: lines t.toList ∧ parse ids t = .ok c

/-- **Lines without a fault can be completed.** -/
theorem completable_of_read {st : Stage} (hrows : ∀ line ∈ rows, '\n' ∉ line)
    (h : Stage.start.read ids (counted 1 rows) = .ok st) : Completable ids rows := by
  obtain ⟨more, c, hmore, hreach⟩ := st.exists_completion ids
  obtain ⟨t, ht⟩ := exists_lines_eq (List.forall_mem_append.mpr ⟨hrows, hmore⟩)
  have hread : st.read ids (counted (1 + rows.length) more) = .ok (.closed c) := by
    have hfaults : (st.read ids (counted (1 + rows.length) more)).mapError (·.fault) =
        .ok (.closed c) := by
      rw [Stage.mapError_read, map_text_counted]
      exact hreach
    rcases hmore : st.read ids (counted (1 + rows.length) more) with e | st'
    · rw [hmore] at hfaults
      cases hfaults
    · rw [hmore] at hfaults
      exact congrArg Except.ok (Except.ok.inj hfaults)
  refine ⟨String.ofList t, c, ?_, ?_⟩
  · rw [String.toList_ofList, ht]
    exact List.prefix_append rows more
  · rw [parse_eq_read, String.toList_ofList, ht, counted_append, Stage.read_append, h]
    change (st.read ids _ >>= fun st => st.finish.mapError _) = _
    rw [hread]
    rfl

/-- **The line that is reported is the first one at fault.** A text that writes no class is read to
its end, can be completed and is reported with its last line; or the lines before the one that is
reported can be completed, and every text that starts with these and with the line itself is reported
alike. -/
theorem parse_error_first (ids : Naming) (s : String) (e : ParseError)
    (h : parse ids s = .error e) :
    (EndsAt (lines s.toList) e.line ∧ RunsOut ids s e.fault ∧
      Completable ids (lines s.toList)) ∨
    (CountsAt (lines s.toList) e.line ∧
      Completable ids ((lines s.toList).take (e.line - 1)) ∧
      ∀ t : String, (lines s.toList).take e.line <+: lines t.toList → parse ids t = .error e) := by
  have hrows : ∀ line ∈ lines s.toList, '\n' ∉ line := fun _ => not_mem_of_mem_lines
  rw [parse_eq_read] at h
  rcases hread : Stage.start.read ids (counted 1 (lines s.toList)) with e' | st
  · -- a line is at fault, and those before it are not
    obtain rfl : e' = e := by
      rw [hread] at h
      exact Except.error.inj h
    obtain ⟨before, line, after, st, hsplit, hbefore, hline, hstep, hnumber⟩ :=
      Stage.read_counted_eq_error hread
    rw [Nat.add_comm] at hnumber
    have htake : (lines s.toList).take e'.line = before ++ [line] := by
      rw [hsplit, hnumber, List.take_append]
      simp
    refine .inr ⟨?_, ?_, fun t ht => ?_⟩
    · rw [hsplit, hnumber]
      exact countsAt_length before after hline
    · rw [hsplit] at hrows ⊢
      rw [hnumber, Nat.add_sub_cancel, List.take_left]
      exact completable_of_read (List.forall_mem_append.mp hrows).1 hbefore
    · rw [htake] at ht
      obtain ⟨more, hmore⟩ := ht
      rw [List.append_assoc, List.singleton_append] at hmore
      rw [parse_eq_read, ← hmore, Stage.read_counted_of_step hbefore hline hstep more,
        Nat.add_comm 1, ← hnumber]
      rfl
  · -- no line is, so only the end of the text can be
    rw [hread] at h
    change st.finish.mapError _ = _ at h
    rcases hfinish : st.finish with fault | c
    · rw [hfinish] at h
      obtain rfl : ⟨lastNumber (counted 1 (lines s.toList)), fault⟩ = e := Except.error.inj h
      exact .inl ⟨endsAt_lastNumber _, ⟨st, hread, hfinish⟩, completable_of_read hrows hread⟩
    · rw [hfinish] at h
      cases h

/-- A class with a line that would be a field if it ended in a semicolon. -/
def semicolonless : String :=
  ofLines ["class A \x7b".toList, "int x // no semicolon".toList, ['}']]

/-- The line without a semicolon is reported, and it would be with anything behind it. -/
theorem parse_error_first_semicolonless :
    parse .plain semicolonless = .error ⟨2, .missingParameters⟩ ∧
    CountsAt (lines semicolonless.toList) 2 ∧
    Completable .plain ((lines semicolonless.toList).take 1) ∧
    ∀ t : String, (lines semicolonless.toList).take 2 <+: lines t.toList →
      parse .plain t = .error ⟨2, .missingParameters⟩ := by
  have h : parse .plain semicolonless = .error ⟨2, .missingParameters⟩ := rfl
  have hbrace : CountsAt (lines semicolonless.toList) 3 := ⟨2, ['}'], rfl, rfl, by decide⟩
  rcases parse_error_first .plain semicolonless _ h with ⟨hends, -, -⟩ | hfirst
  · rcases hends with ⟨-, hlast⟩ | ⟨hnone, -⟩
    · exact absurd (hlast 3 hbrace) (by decide)
    · exact absurd hbrace (hnone 3)
  · exact ⟨h, hfirst⟩

end Classpath.TextClass
