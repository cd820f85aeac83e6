import Classpath.Store.FileTree
import Classpath.Proofs.Path

/-!
# Files below a directory

A path that is followed to a directory and then goes on with plain names leads to the entry of these
names below the directory, as long as no link is on the way. So in a tree as file systems have them,
the files that are found below a directory are those that a walk lists.

* `Classpath.FileTree.WellFormed` – trees as file systems have them.
* `Classpath.FileTree.step`, `Classpath.FileTree.locateFrom_cons` – following one name.
* `Classpath.FileTree.exists_locate_join`, `Classpath.FileTree.Unlinked.eq_of_locate_join`,
  `Classpath.FileTree.exists_locateFrom_of_join_join` – a path that goes on below another one.
* `Classpath.FileTree.WellFormed.locate_eq`, `Classpath.FileTree.WellFormed.locate_join_eq` – the
  path of an entry.
* `Classpath.FileTree.isFile_join_iff`, `Classpath.FileTree.isFile_join_join_eq_false` – the files
  below a directory, and below what is none.
-/

namespace Classpath.FileTree

variable {t : FileTree} {dir key : Key} {name : String} {names rest : List String} {links : Nat}

/-- A name that stands for an entry of a directory. -/
def IsPlainName (name : String) : Prop :=
  name ≠ "" ∧ name ≠ "." ∧ name ≠ ".."

/-- **A name that an entry of a directory may have.** -/
def IsEntryName (name : String) : Prop :=
  IsPlainName name ∧ '/' ∉ name.toList ∧ '\x00' ∉ name.toList ∧ name.utf8ByteSize ≤ maxName

instance (name : String) : Decidable (IsPlainName name) :=
  inferInstanceAs (Decidable (_ ∧ _))

instance (name : String) : Decidable (IsEntryName name) :=
  inferInstanceAs (Decidable (_ ∧ _))

/-- **A tree as file systems have them**: each entry has one key, made of names that entries may
have, and is in a directory. -/
structure WellFormed (t : FileTree) : Prop where
  distinct : (t.nodes.map Prod.fst).Nodup
  nonempty : ∀ e ∈ t.nodes, e.1 ≠ []
  named : ∀ e ∈ t.nodes, ∀ name ∈ e.1, IsEntryName name
  directory : ∀ e ∈ t.nodes, t.node? e.1.dropLast = some .directory

/-! ### Entries -/

theorem node?_of_ne_nil (h : key ≠ []) : t.node? key = t.nodes.lookup key :=
  if_neg (by simpa using h)

theorem mem_of_node? {node : Node} (hkey : key ≠ []) (h : t.node? key = some node) :
    (key, node) ∈ t.nodes := by
  rw [node?_of_ne_nil hkey, List.lookup_eq_some_iff] at h
  obtain ⟨before, after, hnodes, -⟩ := h
  rw [hnodes]
  simp

theorem WellFormed.node?_eq (hw : t.WellFormed) {node : Node} (h : (key, node) ∈ t.nodes) :
    t.node? key = some node := by
  obtain ⟨before, after, hnodes⟩ := List.append_of_mem h
  rw [node?_of_ne_nil (hw.nonempty _ h), List.lookup_eq_some_iff]
  refine ⟨before, after, hnodes, fun e he => ?_⟩
  have hdistinct := hw.distinct
  rw [hnodes, List.map_append, List.map_cons, List.nodup_append] at hdistinct
  have hne := hdistinct.2.2 e.1 (List.mem_map_of_mem he) key (by simp)
  simpa using Ne.symm hne

/-- **Everything on the way to an entry is a directory.** -/
theorem WellFormed.directory_of_isPrefix (hw : t.WellFormed) {node : Node}
    (h : (key, node) ∈ t.nodes) (hstart : dir <+: key) (hne : dir ≠ key) :
    t.node? dir = some .directory := by
  obtain ⟨below, rfl⟩ := hstart
  induction below using List.reverseRecOn generalizing node with
  | nil => simp at hne
  | append_singleton below last ih =>
    have hparent := hw.directory _ h
    rw [← List.append_assoc, List.dropLast_concat] at hparent
    by_cases hbelow : below = []
    · rwa [hbelow, List.append_nil] at hparent
    · have hne' : dir ++ below ≠ [] := by simp [hbelow]
      exact ih (mem_of_node? hne' hparent) (by simpa using hbelow)

/-- What has something below it is a directory. -/
theorem WellFormed.directory_of_below (hw : t.WellFormed) {node : Node}
    (h : t.node? (dir ++ name :: names) = some node) (hne : names ≠ []) :
    t.node? (dir ++ [name]) = some .directory := by
  refine hw.directory_of_isPrefix (mem_of_node? (by simp) h) ?_ (by simp [hne])
  exact ⟨names, by simp⟩

theorem isPrefixOf?_append_self (dir names : Key) : dir.isPrefixOf? (dir ++ names) = some names :=
  List.isPrefixOf?_eq_some_iff_append_eq.mpr rfl

theorem mem_filesBelow : names ∈ t.filesBelow dir ↔
    names ≠ [] ∧ ∃ contents executable, (dir ++ names, .file contents executable) ∈ t.nodes := by
  rw [filesBelow, List.mem_mergeSort, List.mem_filterMap]
  constructor
  · rintro ⟨⟨key, node⟩, hmem, hsome⟩
    rcases hstart : dir.isPrefixOf? key with _ | relative
    · rcases node with _ | _ | _ <;> simp [hstart] at hsome
    · rw [List.isPrefixOf?_eq_some_iff_append_eq] at hstart
      subst hstart
      rcases node with ⟨contents, executable⟩ | _ | _
      · obtain ⟨hne, rfl⟩ : relative ≠ [] ∧ relative = names := by
          simpa [isPrefixOf?_append_self] using hsome
        exact ⟨hne, contents, executable, hmem⟩
      · simp at hsome
      · simp at hsome
  · rintro ⟨hne, contents, executable, hmem⟩
    refine ⟨_, hmem, ?_⟩
    simpa [isPrefixOf?_append_self] using hne

/-! ### Following names -/

/-- **What one name of a path leads to** when links are followed: how many links may still be
followed, the directory that was reached and the names that a link puts before the others. -/
def step (t : FileTree) (links : Nat) (cur : Key) (name : String) :
    Except FileFault (Nat × Key × List String) :=
  if t.node? cur ≠ some .directory then .error .notADirectory
  else if name = "" ∨ name = "." then .ok (links, cur, [])
  else if name = ".." then
    if cur.isEmpty then .error .notFound else .ok (links, cur.dropLast, [])
  else if name.utf8ByteSize > maxName then .error .nameTooLong
  else
    match t.node? (cur ++ [name]) with
    | none => .error .notFound
    | some (.link target) =>
      match links with
      | 0 => .error .tooManyLinks
      | links + 1 =>
        if target.isAbsolute then
          match t.inMount? target with
          | some inner => .ok (links, [], inner)
          | none => .error .notFound
        else .ok (links, cur, FileTree.names target)
    | some _ => .ok (links, cur ++ [name], [])

theorem locateFrom_nil : t.locateFrom .target links dir [] = .ok dir := by
  rw [locateFrom]

/-- **Names are followed one by one**, the last one too unless the entry of its name is meant. -/
theorem locateFrom_cons_of {last : LastName}
    (hentry : (rest.isEmpty && decide (last = .entry)) = false) (htarget : last ≠ .targetToBe) :
    t.locateFrom last links dir (name :: rest) =
      (t.step links dir name).bind fun (links, cur, more) =>
        t.locateFrom last links cur (more ++ rest) := by
  rw [locateFrom, step]
  simp only [hentry, decide_eq_false htarget, Bool.and_false, Bool.false_eq_true, if_false]
  split_ifs
  · rfl
  · rfl
  · rfl
  · rfl
  · rfl
  · rcases t.node? (dir ++ [name]) with _ | (⟨contents, executable⟩ | _ | target)
    · rfl
    · rfl
    · rfl
    · rcases links with _ | links
      · rfl
      · simp only
        split_ifs
        · rcases t.inMount? target with _ | inner <;> rfl
        · rfl

theorem locateFrom_cons : t.locateFrom .target links dir (name :: rest) =
    (t.step links dir name).bind fun (links, cur, more) =>
      t.locateFrom .target links cur (more ++ rest) :=
  locateFrom_cons_of (by simp) (by simp)

/-- A path followed for at most `n` steps. There is no result if it goes on then. -/
def followed? (t : FileTree) : Nat → Nat → Key → List String → Option (Except FileFault Key)
  | _, _, dir, [] => some (.ok dir)
  | 0, _, _, _ :: _ => none
  | n + 1, links, dir, name :: rest =>
    match t.step links dir name with
    | .error fault => some (.error fault)
    | .ok (links, cur, more) => t.followed? n links cur (more ++ rest)

/-- **A path leads where a number of steps does.** -/
theorem locateFrom_of_followed? {n : Nat} {result : Except FileFault Key}
    (h : t.followed? n links dir names = some result) :
    t.locateFrom .target links dir names = result := by
  induction n generalizing links dir names with
  | zero =>
    rcases names with _ | ⟨name, rest⟩
    · exact locateFrom_nil.trans (Option.some.inj h)
    · cases h
  | succ n ih =>
    rcases names with _ | ⟨name, rest⟩
    · exact locateFrom_nil.trans (Option.some.inj h)
    · rw [followed?] at h
      rw [locateFrom_cons]
      rcases hstep : t.step links dir name with fault | ⟨links', cur, more⟩
      · rw [hstep] at h
        exact Option.some.inj h
      · rw [hstep] at h
        exact ih h

/-- A step follows a link or takes up one name. -/
theorem step_lt {links' : Nat} {cur : Key} {more : List String}
    (h : t.step links dir name = .ok (links', cur, more)) :
    links' < links ∨ links' = links ∧ more = [] := by
  have hkeep : ∀ {cur' : Key}, (Except.ok (links, cur', []) : Except FileFault _) =
      .ok (links', cur, more) → links' < links ∨ links' = links ∧ more = [] := by
    intro cur' heq
    obtain ⟨rfl, -, rfl⟩ : links = links' ∧ cur' = cur ∧ [] = more := by simpa using heq
    exact .inr ⟨rfl, rfl⟩
  rw [step] at h
  split_ifs at h
  · exact hkeep h
  · exact hkeep h
  · split at h
    · cases h
    · rcases links with _ | links
      · cases h
      · have hlink : ∀ {cur' : Key} {more' : List String},
            (Except.ok (links, cur', more') : Except FileFault _) = .ok (links', cur, more) →
            links' < links + 1 := by
          intro cur' more' heq
          obtain ⟨rfl, -⟩ := Prod.mk.inj (Except.ok.inj heq)
          exact Nat.lt_succ_self _
        simp only at h
        split_ifs at h
        · split at h
          · exact .inl (hlink h)
          · cases h
        · exact .inl (hlink h)
    · exact hkeep h

/-- **Induction along a path**: what holds at its end and before a name if it holds after the step
holds of every path, because links run out. -/
theorem step_induction (t : FileTree) {motive : Nat → Key → List String → Prop}
    (nil : ∀ links dir, motive links dir [])
    (cons : ∀ links dir name rest, (∀ links' cur more,
      t.step links dir name = .ok (links', cur, more) → motive links' cur (more ++ rest)) →
      motive links dir (name :: rest)) : ∀ links dir names, motive links dir names
  | links, dir, [] => nil links dir
  | links, dir, name :: rest => cons links dir name rest fun links' cur more hstep =>
      have _hlt := step_lt hstep
      step_induction t nil cons links' cur (more ++ rest)
termination_by links _ names => (links, names.length)
decreasing_by
  rcases _hlt with hlinks | ⟨rfl, rfl⟩
  · exact Prod.Lex.left _ _ hlinks
  · exact Prod.Lex.right _ (by simp)

/-- **A path that goes on is followed from where it has come**, with the links that are left. -/
theorem exists_locateFrom_append (h : t.locateFrom .target links dir names = .ok key) :
    ∃ n, ∀ rest, t.locateFrom .target links dir (names ++ rest) =
      t.locateFrom .target n key rest := by
  induction links, dir, names using step_induction t with
  | nil links dir =>
    rw [locateFrom_nil] at h
    obtain rfl := Except.ok.inj h
    exact ⟨links, fun _ => rfl⟩
  | cons links dir name names ih =>
    rw [locateFrom_cons] at h
    rcases hstep : t.step links dir name with fault | ⟨links', cur, more⟩
    · rw [hstep] at h
      cases h
    · rw [hstep] at h
      obtain ⟨n, hn⟩ := ih links' cur more hstep h
      refine ⟨n, fun rest => ?_⟩
      rw [List.cons_append, locateFrom_cons, hstep, ← hn rest, List.append_assoc]
      rfl

theorem step_of_not_directory (h : t.node? dir ≠ some .directory) :
    t.step links dir name = .error .notADirectory :=
  if_pos h

/-- What is no directory has nothing below it. -/
theorem locateFrom_of_not_directory (h : t.node? dir ≠ some .directory) (hne : names ≠ []) :
    t.locateFrom .target links dir names = .error .notADirectory := by
  obtain ⟨name, rest, rfl⟩ := List.exists_cons_of_ne_nil hne
  rw [locateFrom_cons, step_of_not_directory h]
  rfl

/-- An empty name that is not the last one counts for nothing. -/
theorem locateFrom_blank (hrest : rest ≠ []) :
    t.locateFrom .target links dir (names ++ "" :: rest) =
      t.locateFrom .target links dir (names ++ rest) := by
  induction links, dir, names using step_induction t with
  | nil links dir =>
    rw [List.nil_append, List.nil_append, locateFrom_cons]
    by_cases hdir : t.node? dir = some .directory
    · have hstep : t.step links dir "" = .ok (links, dir, []) := by
        rw [step, if_neg (not_not.mpr hdir), if_pos (.inl rfl)]
      rw [hstep]
      rfl
    · rw [locateFrom_of_not_directory hdir hrest, step_of_not_directory hdir]
      rfl
  | cons links dir name names ih =>
    rw [List.cons_append, List.cons_append, locateFrom_cons, locateFrom_cons]
    rcases hstep : t.step links dir name with fault | ⟨links', cur, more⟩
    · rfl
    · have hmore := ih links' cur more hstep
      rw [List.append_assoc, List.append_assoc] at hmore
      exact hmore

/-! ### Below a directory -/

/-- **No link is on the way** that names take from a directory, nor at its end. -/
def Unlinked (t : FileTree) (dir : Key) (names : List String) : Prop :=
  ∀ before, before ≠ [] → before <+: names → ∀ target, t.node? (dir ++ before) ≠ some (.link target)

theorem unlinked_of_forall (h : ∀ e ∈ t.nodes, ∀ target, e.2 ≠ .link target) :
    t.Unlinked dir names := by
  intro before hne _ target hlink
  exact h _ (mem_of_node? (by simp [hne]) hlink) target rfl

theorem Unlinked.tail (h : t.Unlinked dir (name :: names)) : t.Unlinked (dir ++ [name]) names := by
  intro before hne hstart target
  rw [List.append_assoc, List.singleton_append]
  exact h (name :: before) (by simp) (List.cons_prefix_cons.mpr ⟨rfl, hstart⟩) target

theorem Unlinked.head (h : t.Unlinked dir (name :: names)) : t.Unlinked dir [name] :=
  fun before hne hstart => h before hne (hstart.trans (by simp))

/-- **A step that follows no link** stays, goes up or goes down. -/
theorem step_of_unlinked {cur : Key} {more : List String} {links' : Nat}
    (h : t.Unlinked dir [name]) (hstep : t.step links dir name = .ok (links', cur, more)) :
    links' = links ∧ more = [] ∧ ((name = "" ∨ name = ".") ∧ cur = dir ∨
      name = ".." ∧ dir ≠ [] ∧ cur = dir.dropLast ∨ IsPlainName name ∧ cur = dir ++ [name]) := by
  have hunlinked := h [name] (by simp) (List.prefix_refl _)
  have hkeep : ∀ {cur' : Key}, (Except.ok (links, cur', []) : Except FileFault _) =
      .ok (links', cur, more) → links' = links ∧ more = [] ∧ cur = cur' := by
    intro cur' heq
    obtain ⟨rfl, rfl, rfl⟩ : links = links' ∧ cur' = cur ∧ [] = more := by simpa using heq
    exact ⟨rfl, rfl, rfl⟩
  rw [step] at hstep
  split_ifs at hstep with _ hvoid hup hroot _
  · obtain ⟨hlinks, hmore, hcur⟩ := hkeep hstep
    exact ⟨hlinks, hmore, .inl ⟨hvoid, hcur⟩⟩
  · obtain ⟨hlinks, hmore, hcur⟩ := hkeep hstep
    exact ⟨hlinks, hmore, .inr (.inl ⟨hup, by simpa using hroot, hcur⟩)⟩
  · split at hstep
    · cases hstep
    · rename_i target hnode
      exact absurd hnode (hunlinked target)
    · obtain ⟨hlinks, hmore, hcur⟩ := hkeep hstep
      rw [not_or] at hvoid
      exact ⟨hlinks, hmore, .inr (.inr ⟨⟨hvoid.1, hvoid.2, hup⟩, hcur⟩)⟩

/-- **A name that is no link leads to its own entry.** -/
theorem Unlinked.locateFrom_cons (h : t.Unlinked dir [name]) (hname : IsPlainName name)
    (hlocate : t.locateFrom .target links dir (name :: names) = .ok key) :
    t.locateFrom .target links (dir ++ [name]) names = .ok key := by
  obtain ⟨hempty, hdot, hdots⟩ := hname
  rw [FileTree.locateFrom_cons] at hlocate
  rcases hstep : t.step links dir name with fault | ⟨links', cur, more⟩
  · rw [hstep] at hlocate
    cases hlocate
  · rw [hstep] at hlocate
    obtain ⟨rfl, rfl, ⟨hvoid | hvoid, -⟩ | ⟨hup, -⟩ | ⟨-, rfl⟩⟩ := step_of_unlinked h hstep
    · exact absurd hvoid hempty
    · exact absurd hvoid hdot
    · exact absurd hup hdots
    · exact hlocate

/-- **Without links names lead to the key that they are written in.** -/
theorem Unlinked.eq_append (h : t.Unlinked dir names) (hnames : ∀ name ∈ names, IsPlainName name)
    (hlocate : t.locateFrom .target links dir names = .ok key) : key = dir ++ names := by
  induction names generalizing links dir with
  | nil =>
    rw [locateFrom_nil] at hlocate
    rw [List.append_nil, Except.ok.inj hlocate]
  | cons name names ih =>
    obtain ⟨hname, hrest⟩ := List.forall_mem_cons.mp hnames
    rw [ih h.tail hrest (h.head.locateFrom_cons hname hlocate), List.append_assoc,
      List.singleton_append]

/-- **Every entry below a directory is found there**: there are no links on the way. -/
theorem WellFormed.locateFrom_eq {last : LastName} (hw : t.WellFormed) {node : Node}
    (hmem : (dir ++ names, node) ∈ t.nodes) (hnode : ∀ target, node ≠ .link target) :
    t.locateFrom last links dir names = .ok (dir ++ names) := by
  induction names generalizing dir with
  | nil => rw [locateFrom, List.append_nil]
  | cons name names ih =>
    have hsplit : dir ++ name :: names = (dir ++ [name]) ++ names := by simp
    obtain ⟨⟨hempty, hdot, hdots⟩, -, -, hsize⟩ := hw.named _ hmem name (by simp)
    have hdir : t.node? dir = some .directory :=
      hw.directory_of_isPrefix hmem (List.prefix_append ..) (by simp)
    have hnext : ∃ next, t.node? (dir ++ [name]) = some next ∧ ∀ target, next ≠ .link target := by
      rcases names with _ | ⟨second, names⟩
      · exact ⟨node, hw.node?_eq hmem, hnode⟩
      · refine ⟨.directory, hw.directory_of_isPrefix hmem ?_ (by simp), by simp⟩
        rw [hsplit]
        exact List.prefix_append ..
    obtain ⟨next, hnext, hnotLink⟩ := hnext
    rw [hsplit] at hmem ⊢
    rw [← ih hmem, locateFrom, if_neg (not_not.mpr hdir), if_neg (by simp [hempty, hdot]),
      if_neg hdots, if_neg (by omega)]
    rcases next with _ | _ | target
    · simp only [hnext]
    · simp only [hnext]
    · exact absurd rfl (hnotLink target)

/-- The names of a path below another one, which a slash may end. -/
theorem exists_names_join {root relative : Path} (hroot : root.text ≠ "")
    (hrelative : relative.isAbsolute = false) :
    ∃ front, (FileTree.names root = front ∨ FileTree.names root = front ++ [""]) ∧
      FileTree.names (root.join relative) = front ++ FileTree.names relative := by
  have hne : root.text.toList ≠ [] := by simpa using hroot
  rcases List.eq_nil_or_concat root.text.toList with hnil | ⟨init, last, hlast⟩
  · exact absurd hnil hne
  · rw [List.concat_eq_append] at hlast
    have hgetLast : root.text.toList.getLast? = some last := by
      rw [hlast, List.getLast?_concat]
    by_cases hslash : last = '/'
    · subst hslash
      refine ⟨(init.splitOn '/').map String.ofList, .inr ?_, ?_⟩
      · rw [FileTree.names, Path.segments, hlast, List.splitOn_append_cons_self, List.splitOn_nil,
          List.map_append]
        rfl
      · have hjoin : (root.join relative).text.toList = init ++ '/' :: relative.text.toList := by
          simp [Path.join, hrelative, hlast]
        rw [FileTree.names, Path.segments, hjoin, List.splitOn_append_cons_self, List.map_append]
        rfl
    · refine ⟨FileTree.names root, .inl rfl, ?_⟩
      have hjoin : (root.join relative).text.toList =
          root.text.toList ++ '/' :: relative.text.toList := by
        simp [Path.join, hrelative, hgetLast]
      rw [FileTree.names, Path.segments, hjoin, List.splitOn_append_cons_self, List.map_append]
      rfl

/-- What is joined to a path stands behind it, and possibly behind a slash. -/
theorem exists_text_join {root : Path} (hroot : root.text ≠ "") :
    ∃ slash, (∀ c ∈ slash, c = '/') ∧ ∀ relative : Path, relative.isAbsolute = false →
      (root.join relative).text.toList = root.text.toList ++ slash ++ relative.text.toList := by
  rcases hlast : root.text.toList.getLast? with _ | c
  · rw [List.getLast?_eq_none_iff] at hlast
    exact absurd (by simpa using hlast) hroot
  · by_cases hc : c = '/'
    · subst hc
      refine ⟨[], by simp, fun relative hrelative => ?_⟩
      rw [Path.join, if_neg (by simp [hrelative])]
      simp [hlast]
    · refine ⟨['/'], by simp, fun relative hrelative => ?_⟩
      rw [Path.join, if_neg (by simp [hrelative])]
      simp [hlast]

theorem isAbsolute_join {root relative : Path} (hroot : root.text ≠ "")
    (hrelative : relative.isAbsolute = false) :
    (root.join relative).isAbsolute = root.isAbsolute := by
  obtain ⟨slash, -, htext⟩ := exists_text_join hroot
  have hne : root.text.toList ≠ [] := by simpa using hroot
  rw [Path.isAbsolute, Path.isAbsolute, htext relative hrelative, List.append_assoc,
    List.head?_append_of_ne_nil _ hne]

/-- A path of plain names does not start at the root. -/
theorem isAbsolute_of_names {p : Path} (h : ∀ name ∈ FileTree.names p, IsPlainName name) :
    p.isAbsolute = false := by
  rw [Path.isAbsolute, decide_eq_false_iff_not]
  intro hslash
  obtain ⟨rest, hrest⟩ := List.head?_eq_some_iff.mp hslash
  have hempty : "" ∈ FileTree.names p := by
    have hsplit : ('/' :: rest).splitOn '/' = [] :: rest.splitOn '/' :=
      List.splitOn_append_cons_self_of_not_mem (List.not_mem_nil) rest
    rw [FileTree.names, Path.segments, hrest, hsplit]
    simp
  exact (h "" hempty).1 rfl

/-- Plain names are not left out. -/
theorem filter_names_of_plain (h : ∀ name ∈ names, IsPlainName name) :
    names.filter (· ≠ "") = names :=
  List.filter_eq_self.mpr fun name hname => by simpa using (h name hname).1

theorem names_ne_nil (p : Path) : FileTree.names p ≠ [] := by
  simp [FileTree.names, Path.segments, List.splitOn_ne_nil]

/-- The absolute path of something in the working directory goes on there. -/
theorem inMount?_of_append {p q : Path} {inner more : List String} (hp : t.inMount? p = some inner)
    (hq : (FileTree.names q).filter (· ≠ "") = (FileTree.names p).filter (· ≠ "") ++ more) :
    t.inMount? q = some (inner ++ more) := by
  rw [inMount?, List.isPrefixOf?_eq_some_iff_append_eq] at hp ⊢
  rw [hq, ← hp, List.append_assoc]

/-- A path that leads somewhere is not empty and has no zero character. -/
theorem of_locate_eq_ok {last : LastName} {p : Path} (h : t.locate last p = .ok key) :
    p.text ≠ "" ∧ '\x00' ∉ p.text.toList := by
  rw [locate] at h
  split_ifs at h with hnul hempty
  all_goals exact ⟨by simpa using hempty, by simpa using hnul⟩

/-- A path that does not start at the root is followed from the working directory. -/
theorem locate_of_relative {last : LastName} {p : Path} (hne : p.text ≠ "")
    (hzero : '\x00' ∉ p.text.toList) (hfits : p.text.utf8ByteSize ≤ maxPath)
    (hrelative : p.isAbsolute = false) :
    t.locate last p = t.locateFrom last maxLinks [] (FileTree.names p) := by
  have hnul : ¬ p.text.contains '\x00' = true := by
    simpa using hzero
  rw [locate, if_neg hnul, if_neg (by simpa using hne), if_neg (not_lt.mpr hfits), hrelative]
  rfl

/-- A path that starts at the root is followed from the working directory as well, by the names
behind those of the directory. -/
theorem locate_of_absolute {last : LastName} {p : Path} (hne : p.text ≠ "")
    (hzero : '\x00' ∉ p.text.toList) (hfits : p.text.utf8ByteSize ≤ maxPath)
    (habsolute : p.isAbsolute = true) {inner : List String} (hinner : t.inMount? p = some inner) :
    t.locate last p = t.locateFrom last maxLinks [] inner := by
  have hnul : ¬ p.text.contains '\x00' = true := by
    simpa using hzero
  rw [locate, if_neg hnul, if_neg (by simpa using hne), if_neg (not_lt.mpr hfits), if_pos habsolute,
    hinner]

/-- What is found below a path has no zero character either. -/
theorem zeroless_of_locate_join {last : LastName} {root relative : Path} (hroot : root.text ≠ "")
    (hrelative : relative.isAbsolute = false)
    (h : t.locate last (root.join relative) = .ok key) : '\x00' ∉ relative.text.toList := by
  obtain ⟨slash, -, htext⟩ := exists_text_join hroot
  have hmem := (of_locate_eq_ok h).2
  rw [htext relative hrelative] at hmem
  exact fun hzero => hmem (List.mem_append_right _ hzero)

/-- A path below another one is found as soon as it is not too long. -/
theorem locate_join {root relative : Path} {result : Except FileFault Key} (hroot : root.text ≠ "")
    (hnul : '\x00' ∉ root.text.toList) (hrelative : relative.isAbsolute = false)
    (hzero : '\x00' ∉ relative.text.toList)
    (habsolute : root.isAbsolute = true → ∃ inner, t.inMount? (root.join relative) = some inner ∧
      t.locateFrom .target maxLinks [] inner = result)
    (hworking : root.isAbsolute = false →
      t.locateFrom .target maxLinks [] (FileTree.names (root.join relative)) = result) :
    t.locate .target (root.join relative) =
      if (root.join relative).text.utf8ByteSize > maxPath then .error .nameTooLong else result := by
  obtain ⟨slash, hslash, hjoin⟩ := exists_text_join hroot
  have htext := hjoin relative hrelative
  have hnulJoin : ¬ (root.join relative).text.contains '\x00' = true := by
    have hslashes : '\x00' ∉ slash := fun hmem => absurd (hslash _ hmem) (by decide)
    have hmem : '\x00' ∉ (root.join relative).text.toList := by
      simp [htext, hnul, hslashes, hzero]
    simpa using hmem
  have hemptyJoin : ¬ (root.join relative).text.isEmpty = true := by
    have hne : (root.join relative).text.toList ≠ [] := by simp [htext, hroot]
    simpa using hne
  rw [locate, if_neg hnulJoin, if_neg hemptyJoin, isAbsolute_join hroot hrelative]
  rcases hstart : root.isAbsolute with _ | _
  · simp only [Bool.false_eq_true, if_false, hworking hstart]
  · obtain ⟨inner, hinner, hlocate⟩ := habsolute hstart
    simp only [if_true, hinner, hlocate]

/-- **A path that goes on below another one** is followed from where that one leads, unless it gets
too long. Below an absolute path empty names are left out, below another one they are steps. -/
theorem exists_locate_join_of {root : Path} (hroot : t.locate .target root = .ok key) :
    ∃ (n : Nat) (keep : List String → List String),
      (∀ names, keep names = names ∨ keep names = names.filter (· ≠ "")) ∧
      ∀ relative : Path, relative.isAbsolute = false → '\x00' ∉ relative.text.toList →
        t.locate .target (root.join relative) =
          if (root.join relative).text.utf8ByteSize > maxPath then .error .nameTooLong
          else t.locateFrom .target n key (keep (FileTree.names relative)) := by
  obtain ⟨hne, hnul⟩ := of_locate_eq_ok hroot
  rw [locate] at hroot
  split_ifs at hroot with _ _ _ habsolute
  -- an absolute root is followed from the working directory, as what stands below it is
  · rcases hinner : t.inMount? root with _ | inner
    · rw [hinner] at hroot
      cases hroot
    · rw [hinner] at hroot
      obtain ⟨n, hn⟩ := exists_locateFrom_append hroot
      refine ⟨n, fun names => names.filter (· ≠ ""), fun _ => .inr rfl,
        fun relative hrelative hzero => ?_⟩
      obtain ⟨front, hfront, hnames⟩ := exists_names_join hne hrelative
      have hmore : t.inMount? (root.join relative) =
          some (inner ++ (FileTree.names relative).filter (· ≠ "")) := by
        refine inMount?_of_append hinner ?_
        rw [hnames, List.filter_append]
        rcases hfront with heq | heq <;> rw [heq]
        simp
      refine locate_join hne hnul hrelative hzero (fun _ => ⟨_, hmore, hn _⟩) fun hstart => ?_
      rw [hstart] at habsolute
      cases habsolute
  · obtain ⟨n, hn⟩ := exists_locateFrom_append hroot
    refine ⟨n, id, fun _ => .inl rfl, fun relative hrelative hzero => ?_⟩
    obtain ⟨front, hfront, hnames⟩ := exists_names_join hne hrelative
    refine locate_join hne hnul hrelative hzero (fun hstart => absurd hstart habsolute) fun _ => ?_
    rw [hnames]
    rcases hfront with heq | heq <;> rw [heq] at hn
    · exact hn _
    · rw [id, ← hn, List.append_assoc, List.singleton_append,
        locateFrom_blank (names_ne_nil relative)]

/-- **A path of plain names below another one** is followed from where that one leads. -/
theorem exists_locate_join {root : Path} (hroot : t.locate .target root = .ok key) :
    ∃ n, ∀ relative : Path, (∀ name ∈ FileTree.names relative, IsPlainName name) →
      '\x00' ∉ relative.text.toList →
      t.locate .target (root.join relative) =
        if (root.join relative).text.utf8ByteSize > maxPath then .error .nameTooLong
        else t.locateFrom .target n key (FileTree.names relative) := by
  obtain ⟨n, keep, hkeep, hn⟩ := exists_locate_join_of hroot
  refine ⟨n, fun relative hplain hzero => ?_⟩
  have hnames : keep (FileTree.names relative) = FileTree.names relative := by
    rcases hkeep (FileTree.names relative) with heq | heq <;> rw [heq]
    exact filter_names_of_plain hplain
  rw [hn relative (isAbsolute_of_names hplain) hzero, hnames]

/-- What is found below a directory is found from the directory on. -/
theorem exists_locateFrom_of_join {root relative : Path} {found : Key}
    (hroot : t.locate .target root = .ok key)
    (hplain : ∀ name ∈ FileTree.names relative, IsPlainName name)
    (h : t.locate .target (root.join relative) = .ok found) :
    ∃ n, t.locateFrom .target n key (FileTree.names relative) = .ok found := by
  obtain ⟨n, hn⟩ := exists_locate_join hroot
  have hzero := zeroless_of_locate_join (of_locate_eq_ok hroot).1 (isAbsolute_of_names hplain) h
  rw [hn relative hplain hzero] at h
  split_ifs at h
  exact ⟨n, h⟩

/-- **Plain names below a directory lead to what they say**, if no links are on the way. -/
theorem Unlinked.eq_of_locate_join {root relative : Path} {found : Key}
    (hunlinked : t.Unlinked key (FileTree.names relative))
    (hroot : t.locate .target root = .ok key)
    (hplain : ∀ name ∈ FileTree.names relative, IsPlainName name)
    (h : t.locate .target (root.join relative) = .ok found) :
    found = key ++ FileTree.names relative := by
  obtain ⟨n, hn⟩ := exists_locateFrom_of_join hroot hplain h
  exact hunlinked.eq_append hplain hn

/-- A name without slashes is a single step. -/
theorem names_of_slashless (h : '/' ∉ name.toList) : FileTree.names ⟨name⟩ = [name] := by
  rw [FileTree.names, Path.segments, List.splitOn_eq_singleton h]
  simp

/-- **A directory does not have what is not among its entries.** -/
theorem target?_join_eq_none {root : Path} (hroot : t.locate .target root = .ok key)
    (hname : IsPlainName name) (hslash : '/' ∉ name.toList) (hzero : '\x00' ∉ name.toList)
    (hnone : t.node? (key ++ [name]) = none) : t.target? (root.join ⟨name⟩) = none := by
  have hnames := names_of_slashless hslash
  obtain ⟨n, hn⟩ := exists_locate_join hroot
  obtain ⟨fault, hfault⟩ : ∃ fault, t.step n key name = .error fault := by
    obtain ⟨hempty, hdot, hdots⟩ := hname
    simp only [step, hempty, hdot, hdots, or_self, if_false, hnone]
    split_ifs
    · exact ⟨_, rfl⟩
    · exact ⟨_, rfl⟩
    · exact ⟨_, rfl⟩
  rw [target?, hn ⟨name⟩ (by simpa [hnames] using hname) hzero, hnames, locateFrom_cons, hfault]
  split_ifs <;> rfl

/-! ### Walks -/

/-- Where a name can be followed there is an entry of this name. -/
theorem exists_locateFrom_entry_singleton {followed : Nat × Key × List String}
    (h : t.step links dir name = .ok followed) :
    ∃ entry, t.locateFrom .entry links dir [name] = .ok entry := by
  rw [step] at h
  rw [locateFrom]
  simp only [List.isEmpty_nil, reduceCtorEq, decide_true, decide_false, Bool.and_true,
    Bool.and_false, Bool.false_eq_true, if_true, if_false]
  split_ifs at h ⊢
  · exact ⟨dir, by rw [locateFrom]⟩
  · exact ⟨dir.dropLast, by rw [locateFrom]⟩
  · rcases hnode : t.node? (dir ++ [name]) with _ | (⟨contents, executable⟩ | _ | target) <;>
      simp only [hnode] at h ⊢
    · cases h
    · exact ⟨dir ++ [name], by rw [locateFrom]⟩
    · exact ⟨dir ++ [name], by rw [locateFrom]⟩
    · exact ⟨dir ++ [name], rfl⟩

/-- **What a path leads to is an entry**, or a link to it is. -/
theorem exists_locate_entry {p : Path} (h : t.locate .target p = .ok key) :
    ∃ entry, t.locate .entry p = .ok entry := by
  have hfrom : ∀ links dir names, ∀ key, t.locateFrom .target links dir names = .ok key →
      ∃ entry, t.locateFrom .entry links dir names = .ok entry := by
    intro links dir names
    induction links, dir, names using step_induction t with
    | nil links dir => exact fun _ _ => ⟨dir, by rw [locateFrom]⟩
    | cons links dir name rest ih =>
      intro key h
      rw [locateFrom_cons] at h
      rcases hstep : t.step links dir name with fault | ⟨links', cur, more⟩
      · rw [hstep] at h
        cases h
      · rw [hstep] at h
        rcases rest with _ | ⟨next, rest⟩
        · exact exists_locateFrom_entry_singleton hstep
        · rw [locateFrom_cons_of (by simp) (by simp), hstep]
          exact ih links' cur more hstep key h
  rw [locate] at h ⊢
  split_ifs at h ⊢
  · rcases hinner : t.inMount? p with _ | inner <;> rw [hinner] at h
    · cases h
    · exact hfrom _ _ _ _ h
  · exact hfrom _ _ _ _ h

/-- **A directory that is found can be walked.** -/
theorem walk_of_locate {p : Path} (h : t.locate .target p = .ok key)
    (hdir : t.node? key = some .directory) : t.walk p = .ok (t.filesBelow key) := by
  obtain ⟨entry, hentry⟩ := exists_locate_entry h
  simp only [walk, bind, Except.bind, hentry, h, hdir]

theorem walk_eq_ok {root : Path} {keys : List Key} (h : t.walk root = .ok keys) :
    ∃ key, t.locate .target root = .ok key ∧
      (t.node? key = some .directory ∧ keys = t.filesBelow key ∨
        t.node? key ≠ some .directory ∧ keys = []) := by
  rw [walk] at h
  rcases hentry : t.locate .entry root with fault | entry
  · rw [hentry] at h
    cases h
  · rcases htarget : t.locate .target root with fault | key
    · rw [hentry, htarget] at h
      cases h
    · rw [hentry, htarget] at h
      simp only [bind, Except.bind] at h
      refine ⟨key, rfl, ?_⟩
      split at h
      · rename_i hdir
        exact .inl ⟨hdir, (Except.ok.inj h).symm⟩
      · rename_i hdir
        exact .inr ⟨hdir, (Except.ok.inj h).symm⟩

/-! ### The paths of entries -/

/-- A path written in names that entries may have is free of zero characters. -/
theorem WellFormed.zeroless (hw : t.WellFormed) {p : Path} {node : Node}
    (h : (dir ++ FileTree.names p, node) ∈ t.nodes) : '\x00' ∉ p.text.toList := by
  have htext : ['/'].intercalate (p.text.toList.splitOn '/') = p.text.toList :=
    List.intercalate_splitOn '/'
  rw [← htext]
  refine not_mem_intercalate (by decide) fun piece hpiece => ?_
  have hname := hw.named _ h (String.ofList piece)
    (List.mem_append_right _ (List.mem_map_of_mem hpiece))
  simpa using hname.2.2.1

/-- **The path in which the names of an entry are written leads to it.** -/
theorem WellFormed.locate_eq {last : LastName} (hw : t.WellFormed) {p : Path} {node : Node}
    (h : (FileTree.names p, node) ∈ t.nodes) (hnode : ∀ target, node ≠ .link target)
    (hfits : p.text.utf8ByteSize ≤ maxPath) : t.locate last p = .ok (FileTree.names p) := by
  have hplain : ∀ name ∈ FileTree.names p, IsPlainName name :=
    fun name hname => (hw.named _ h name hname).1
  have hbelow : (([] : Key) ++ FileTree.names p, node) ∈ t.nodes := h
  have hne : p.text ≠ "" := by
    intro hempty
    have hnil : p.text.toList = [] := by simp [hempty]
    exact (hplain "" (by simp [FileTree.names, Path.segments, hnil])).1 rfl
  rw [locate_of_relative hne (hw.zeroless hbelow) hfits (isAbsolute_of_names hplain)]
  exact hw.locateFrom_eq hbelow hnode

/-- **A path that goes on below a directory leads to the entry of its names there.** -/
theorem WellFormed.locate_join_eq (hw : t.WellFormed) {root relative : Path} {node : Node}
    (hroot : t.locate .target root = .ok key) (h : (key ++ FileTree.names relative, node) ∈ t.nodes)
    (hnode : ∀ target, node ≠ .link target)
    (hfits : (root.join relative).text.utf8ByteSize ≤ maxPath) :
    t.locate .target (root.join relative) = .ok (key ++ FileTree.names relative) := by
  have hplain : ∀ name ∈ FileTree.names relative, IsPlainName name :=
    fun name hname => (hw.named _ h name (List.mem_append_right _ hname)).1
  obtain ⟨n, hn⟩ := exists_locate_join hroot
  rw [hn relative hplain (hw.zeroless h), if_neg (not_lt.mpr hfits)]
  exact hw.locateFrom_eq h hnode

theorem WellFormed.target?_eq (hw : t.WellFormed) {p : Path} {node : Node}
    (h : (FileTree.names p, node) ∈ t.nodes) (hnode : ∀ target, node ≠ .link target)
    (hfits : p.text.utf8ByteSize ≤ maxPath) : t.target? p = some node := by
  simp only [target?, hw.locate_eq h hnode hfits, hw.node?_eq h]

theorem WellFormed.read_eq (hw : t.WellFormed) {p : Path} {contents : Contents}
    {executable : Bool} (h : (FileTree.names p, .file contents executable) ∈ t.nodes)
    (hfits : p.text.utf8ByteSize ≤ maxPath) : t.read p = .ok contents := by
  simp only [read, bind, Except.bind, hw.locate_eq h (by simp) hfits, hw.node?_eq h]

theorem WellFormed.walk_eq (hw : t.WellFormed) {p : Path}
    (h : (FileTree.names p, .directory) ∈ t.nodes) (hfits : p.text.utf8ByteSize ≤ maxPath) :
    t.walk p = .ok (t.filesBelow (FileTree.names p)) := by
  simp only [walk, bind, Except.bind, hw.locate_eq h (by simp) hfits, hw.node?_eq h]

theorem WellFormed.entryNames_eq (hw : t.WellFormed) {p : Path}
    (h : (FileTree.names p, .directory) ∈ t.nodes) (hfits : p.text.utf8ByteSize ≤ maxPath) :
    t.entryNames p = .ok (t.childrenOf (FileTree.names p)) := by
  simp only [entryNames, bind, Except.bind, hw.locate_eq h (by simp) hfits, hw.node?_eq h]

/-! ### The entries of directories -/

theorem mem_childrenOf {node : Node} :
    (name, node) ∈ t.childrenOf dir ↔ (dir ++ [name], node) ∈ t.nodes := by
  rw [childrenOf, List.mem_filterMap]
  constructor
  · rintro ⟨⟨key, found⟩, hmem, hsome⟩
    rcases hstart : dir.isPrefixOf? key with _ | relative
    · simp [hstart] at hsome
    · rw [List.isPrefixOf?_eq_some_iff_append_eq] at hstart
      subst hstart
      rcases relative with _ | ⟨first, _ | ⟨second, rest⟩⟩ <;>
        simp [isPrefixOf?_append_self] at hsome
      obtain ⟨rfl, rfl⟩ := hsome
      exact hmem
  · intro hmem
    exact ⟨_, hmem, by simp [isPrefixOf?_append_self]⟩

theorem entryNames_eq_ok {p : Path} {entries : List (String × Node)}
    (h : t.entryNames p = .ok entries) :
    ∃ key, t.locate .target p = .ok key ∧ entries = t.childrenOf key := by
  rw [entryNames] at h
  rcases hlocate : t.locate .target p with fault | key
  · rw [hlocate] at h
    cases h
  · rw [hlocate] at h
    simp only [bind, Except.bind] at h
    split at h
    · exact ⟨key, rfl, (Except.ok.inj h).symm⟩
    · cases h

/-! ### Files below directories -/

theorem isFile_iff {p : Path} : t.isFile p = true ↔
    ∃ key contents executable, t.locate .target p = .ok key ∧
      t.node? key = some (.file contents executable) := by
  rw [isFile, target?]
  constructor
  · intro h
    split at h
    · rename_i contents executable hnode
      split at hnode
      · rename_i key hlocate
        exact ⟨key, contents, executable, hlocate, hnode⟩
      · cases hnode
    · cases h
  · rintro ⟨key, contents, executable, hlocate, hnode⟩
    simp only [hlocate, hnode]

/-- A name and a path below it, as one path. -/
theorem join_join {root relative : Path} (hroot : root.text ≠ "") (hname : name ≠ "")
    (hslash : '/' ∉ name.toList) (hrelative : relative.isAbsolute = false) :
    (root.join ⟨name⟩).join relative = root.join ⟨name ++ "/" ++ relative.text⟩ := by
  obtain ⟨c, tail, hcons⟩ : ∃ c tail, name.toList = c :: tail :=
    List.exists_cons_of_ne_nil (by simpa using hname)
  have hc : c ≠ '/' := by
    rintro rfl
    exact hslash (by simp [hcons])
  have hnameRelative : (⟨name⟩ : Path).isAbsolute = false := by
    simp [Path.isAbsolute, hcons, hc]
  have hbothRelative : (⟨name ++ "/" ++ relative.text⟩ : Path).isAbsolute = false := by
    simp [Path.isAbsolute, hcons, hc]
  obtain ⟨slash, -, htext⟩ := exists_text_join hroot
  obtain ⟨last, hlast⟩ : ∃ last, name.toList.getLast? = some last :=
    ⟨_, List.getLast?_eq_some_getLast (by simpa using hname)⟩
  have hgetLast : (root.join ⟨name⟩).text.toList.getLast? = some last := by
    rw [htext _ hnameRelative, List.getLast?_append_of_ne_nil _ (by simpa using hname), hlast]
  have hne : last ≠ '/' := by
    rintro rfl
    exact hslash (List.mem_of_getLast? hlast)
  have hjoin : (root.join ⟨name⟩).join relative =
      ⟨(root.join ⟨name⟩).text ++ "/" ++ relative.text⟩ := by
    rw [Path.join, if_neg (by simp [hrelative]), hgetLast]
    split
    · contradiction
    · rename_i hslash
      exact absurd (Option.some.inj hslash) hne
    · rfl
  have heq : (root.join ⟨name⟩).text ++ "/" ++ relative.text =
      (root.join ⟨name ++ "/" ++ relative.text⟩).text := by
    refine String.toList_inj.mp ?_
    simp [htext _ hnameRelative, htext _ hbothRelative]
  rw [hjoin, heq]

/-- The names of a path that begins with a name. -/
theorem names_name_append (hslash : '/' ∉ name.toList) (relative : Path) :
    FileTree.names ⟨name ++ "/" ++ relative.text⟩ = name :: FileTree.names relative := by
  have htext : (name ++ "/" ++ relative.text).toList =
      name.toList ++ '/' :: relative.text.toList := by
    simp
  rw [FileTree.names, Path.segments, htext,
    List.splitOn_append_cons_self_of_not_mem hslash, List.map_cons, String.ofList_toList]
  rfl

/-- **What is found below an entry of a directory is found from this entry on**, unless the entry is
a link. -/
theorem exists_locateFrom_of_join_join {dir relative : Path} {found : Key}
    (hdir : t.locate .target dir = .ok key) (hname : IsPlainName name) (hslash : '/' ∉ name.toList)
    (hunlinked : t.Unlinked key [name]) (hrelative : relative.isAbsolute = false)
    (h : t.locate .target ((dir.join ⟨name⟩).join relative) = .ok found) :
    ∃ n names, (names = FileTree.names relative ∨
        names = (FileTree.names relative).filter (· ≠ "")) ∧
      t.locateFrom .target n (key ++ [name]) names = .ok found := by
  have hroot := (of_locate_eq_ok hdir).1
  obtain ⟨c, tail, hcons⟩ : ∃ c tail, name.toList = c :: tail :=
    List.exists_cons_of_ne_nil (by simpa using hname.1)
  have hboth : (⟨name ++ "/" ++ relative.text⟩ : Path).isAbsolute = false := by
    have hc : c ≠ '/' := by
      rintro rfl
      exact hslash (by simp [hcons])
    simp [Path.isAbsolute, hcons, hc]
  obtain ⟨n, keep, hkeep, hn⟩ := exists_locate_join_of hdir
  rw [join_join hroot hname.1 hslash hrelative] at h
  rw [hn _ hboth (zeroless_of_locate_join hroot hboth h), names_name_append hslash] at h
  split_ifs at h
  rcases hkeep (name :: FileTree.names relative) with heq | heq <;> rw [heq] at h
  · exact ⟨n, _, .inl rfl, hunlinked.locateFrom_cons hname h⟩
  · rw [List.filter_cons_of_pos (by simpa using hname.1)] at h
    exact ⟨n, _, .inr rfl, hunlinked.locateFrom_cons hname h⟩

/-- **Nothing is found below what is no directory** and no link. -/
theorem isFile_join_join_eq_false {dir relative : Path} (hdir : t.locate .target dir = .ok key)
    (hname : IsPlainName name) (hslash : '/' ∉ name.toList)
    (hplain : ∀ n ∈ FileTree.names relative, IsPlainName n)
    (hnode : t.node? (key ++ [name]) ≠ some .directory)
    (hunlinked : t.isFile ((dir.join ⟨name⟩).join relative) = true → t.Unlinked key [name]) :
    t.isFile ((dir.join ⟨name⟩).join relative) = false := by
  rw [← Bool.not_eq_true]
  intro hfile
  obtain ⟨found, contents, executable, hlocate, -⟩ := isFile_iff.mp hfile
  obtain ⟨n, names, hnames, hbelow⟩ := exists_locateFrom_of_join_join hdir hname hslash
    (hunlinked hfile) (isAbsolute_of_names hplain) hlocate
  rw [filter_names_of_plain hplain, or_self] at hnames
  rw [hnames, locateFrom_of_not_directory hnode (names_ne_nil relative)] at hbelow
  cases hbelow

/-- **The files found below a directory are those that a walk lists**, as far as no link is on the
way and paths are not too long. -/
theorem isFile_join_iff (hw : t.WellFormed) {root relative : Path} {keys : List Key}
    (hwalk : t.walk root = .ok keys) (hplain : ∀ name ∈ FileTree.names relative, IsPlainName name)
    (hunlinked : t.isFile (root.join relative) = true → ∀ key, t.locate .target root = .ok key →
      t.Unlinked key (FileTree.names relative))
    (hfits : FileTree.names relative ∈ keys →
      (root.join relative).text.utf8ByteSize ≤ maxPath) :
    t.isFile (root.join relative) = true ↔ FileTree.names relative ∈ keys := by
  obtain ⟨key, hkey, hkeys⟩ := walk_eq_ok hwalk
  constructor
  · intro hfile
    obtain ⟨found, contents, executable, hlocate, hnode⟩ := isFile_iff.mp hfile
    obtain ⟨n, hn⟩ := exists_locateFrom_of_join hkey hplain hlocate
    rw [(hunlinked hfile key hkey).eq_append hplain hn] at hnode
    rcases hkeys with ⟨-, rfl⟩ | ⟨hdir, -⟩
    · have hne : key ++ FileTree.names relative ≠ [] := by simp [names_ne_nil]
      exact mem_filesBelow.mpr ⟨names_ne_nil _, contents, executable, mem_of_node? hne hnode⟩
    · rw [locateFrom_of_not_directory hdir (names_ne_nil relative)] at hn
      cases hn
  · intro hmem
    rcases hkeys with ⟨-, rfl⟩ | ⟨-, rfl⟩
    · obtain ⟨-, contents, executable, hnode⟩ := mem_filesBelow.mp hmem
      exact isFile_iff.mpr ⟨_, contents, executable,
        hw.locate_join_eq hkey hnode (by simp) (hfits hmem), hw.node?_eq hnode⟩
    · cases hmem

end Classpath.FileTree
