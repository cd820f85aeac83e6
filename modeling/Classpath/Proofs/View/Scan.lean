import Classpath.Proofs.View.Trace

/-!
# What a scan does

A scan reads what the locations list, part by part, and builds the sources of types that were
neither listed before nor cached. Building resolves further types while the listing is only half
read, and a part is read in whatever world its predecessors left; what is certain of a source that
is built is that it is the first of its type in what all locations list
(`Classpath.View.Scans`).

* `Classpath.View.readScan` – a scan that also returns all entries that it read.
* `Classpath.View.ScanRule` – an invariant of a scan, given by what is done with one source.
* `Classpath.View.runs_readScan`, `Classpath.View.runs_scan` – with it, a scan lists every location
  and sees all that is listed.
* `Classpath.View.runs_resolveAll`, `Classpath.View.runs_resolveAll_sound` – every class of the
  project.
-/

namespace Classpath

namespace View

variable {σ : Type} {v : View σ} {W : σ → Prop} {k : Nat} {stuck : Prop} {s : ViewState σ}
  {l : Location σ}

/-! ### What was listed -/

variable (v W) in
/-- What a location lists begins with `entries`. -/
def Begins (l : Location σ) (entries : List (Except LocationError (Source σ))) : Prop :=
  ∃ rest, Lists v W l (entries ++ rest)

/-- The types of sources are among `seen`. -/
def Covers (seen : List ClassType) (entries : List (Except LocationError (Source σ))) : Prop :=
  ∀ other, .ok other ∈ entries → other.type ∈ seen

/-- Parts that were read are the beginning of what can be read. -/
theorem Reads.extend {read : Listing σ} {entries : List (Except LocationError (Source σ))} {w : σ}
    (h : Reads W read entries) (hw : W w) :
    ∀ parts, ∃ rest, Reads W (read ++ parts) (entries ++ rest)
  | [] => ⟨[], by simpa using h⟩
  | part :: parts => by
    obtain ⟨rest, hrest⟩ := Reads.extend (.snoc part h hw) hw parts
    exact ⟨(part w).1 ++ rest, by simpa using hrest⟩

theorem Reads.eq_nil {entries : List (Except LocationError (Source σ))} (h : Reads W [] entries) :
    entries = [] := by
  generalize hread : ([] : Listing σ) = read at h
  cases h with
  | nil => rfl
  | snoc part _ _ => simp at hread

/-- A listing of one part is read in one world. -/
theorem Reads.of_singleton {part : σ → List (Except LocationError (Source σ)) × σ}
    {entries : List (Except LocationError (Source σ))} (h : Reads W [part] entries) :
    ∃ w, W w ∧ entries = (part w).1 := by
  generalize hread : [part] = read at h
  cases h with
  | nil => cases hread
  | @snoc parts first w other hfirst hw =>
    obtain ⟨rfl, rfl⟩ : parts = [] ∧ other = part := by
      simpa [List.append_eq_singleton_iff] using hread.symm
    rw [hfirst.eq_nil, List.nil_append]
    exact ⟨w, hw, rfl⟩

/-! ### What a scan reads -/

/-- Reads the parts of a listing and builds what they hold, and returns the types listed so far and
the entries that were read. -/
def readParts (v : View σ) (fuel : Nat) (l : Location σ) (seen : List ClassType) :
    Listing σ → Action σ (List ClassType × List (Except LocationError (Source σ)))
  | [] => return (seen, [])
  | part :: rest => do
    let entries ← inWorld part
    let seen ← v.scanEntries fuel l seen entries
    let read ← readParts v fuel l seen rest
    return (read.1, entries ++ read.2)

/-- Builds what locations list, in order, and returns the entries that were read. -/
def readScan (v : View σ) (fuel : Nat) (seen : List ClassType) :
    List (Location σ) → Action σ (List (Except LocationError (Source σ)))
  | [] => return []
  | l :: rest => do
    match ← inWorld (l.list v.project.naming) with
    | .error e => Run.fail (.scan l.description e)
    | .ok listing =>
      let read ← v.readParts fuel l seen listing
      return read.2 ++ (← readScan v fuel read.1 rest)

theorem scanParts_eq (fuel : Nat) (seen : List ClassType) (parts : Listing σ) :
    v.scanParts fuel l seen parts = v.readParts fuel l seen parts >>= fun read => pure read.1 := by
  induction parts generalizing seen with
  | nil => rfl
  | cons part rest ih => simp only [scanParts, readParts, ih, Run.bind_assoc, Run.pure_bind]

/-- **A scan reads what it reads**: forgetting the entries leaves the scan. -/
theorem scan_eq (fuel : Nat) (seen : List ClassType) (locations : List (Location σ)) :
    v.scan fuel seen locations = v.readScan fuel seen locations >>= fun _ => pure () := by
  induction locations generalizing seen with
  | nil => rfl
  | cons l rest ih =>
    simp only [scan, readScan, Run.bind_assoc]
    congr 1
    funext listed
    cases listed with
    | error e => rfl
    | ok listing => simp only [scanParts_eq, ih, Run.bind_assoc, Run.pure_bind]

/-! ### What a scan keeps -/

/-- **A scan as an invariant.** `I seen` is kept when a listed source is passed over because its
type was seen, when its type is found to be cached, and when it is built. -/
structure ScanRule (v : View σ) (W : σ → Prop) (k : Nat) (stuck : Prop) (fuel : Nat)
    (I : List ClassType → ViewState σ → Prop) : Prop where
  world : ∀ {seen s w}, I seen s → W w → I seen { s with world := w }
  held : ∀ {seen s t}, I seen s → (s.cache.find? t).isSome → I (t :: seen) s
  build : ∀ {seen s l src}, I seen s → W s.world → Scans v W l src → src.type ∉ seen →
    s.cache.find? src.type = none →
    Runs v W k stuck (v.build (v.resolve fuel) l src) s fun _ s' => I (src.type :: seen) s'

section Scan

variable {fuel : Nat} {I : List ClassType → ViewState σ → Prop}

theorem runs_scanEntries (hrule : ScanRule v W k stuck fuel I) (hW : Steady v W)
    {before after : List (Location σ)} (hsplit : v.project.locations = before ++ l :: after)
    {past : List ClassType}
    (hbefore : ∀ m ∈ before, ∃ entries, Lists v W m entries ∧ Covers past entries) :
    ∀ (later earlier : List (Except LocationError (Source σ))) (seen : List ClassType)
      (s : ViewState σ), Begins v W l (earlier ++ later) → past ⊆ seen → Covers seen earlier →
      W s.world → I seen s →
      Runs v W k stuck (v.scanEntries fuel l seen later) s fun seen' s' =>
        seen ⊆ seen' ∧ Covers seen' (earlier ++ later) ∧ I seen' s'
  | [], earlier, seen, s, _, _, hseen, _, hI =>
    runs_pure ⟨List.Subset.refl _, by simpa using hseen, hI⟩
  | .error e :: later, earlier, seen, s, hbegins, _, _, _, _ => by
    obtain ⟨rest, hlists⟩ := hbegins
    exact runs_fail (.entry (by simp [hsplit]) hlists (by simp))
  | .ok src :: later, earlier, seen, s, hbegins, hpast, hseen, hw, hI => by
    have hassoc : earlier ++ .ok src :: later = (earlier ++ [.ok src]) ++ later := by simp
    rw [hassoc] at hbegins ⊢
    -- the rest of the entries, once the type of this one was seen
    have hrest : ∀ {seen' s'}, Trace v W k s s' → seen ⊆ seen' → src.type ∈ seen' → I seen' s' →
        Runs v W k stuck (v.scanEntries fuel l seen' later) s' fun seen'' s'' =>
          seen ⊆ seen'' ∧ Covers seen'' ((earlier ++ [.ok src]) ++ later) ∧ I seen'' s'' := by
      intro seen' s' htrace hsub hmem hI'
      have hcovers : Covers seen' (earlier ++ [.ok src]) := by
        intro other hother
        rcases List.mem_append.mp hother with hother | hother
        · exact hsub (hseen other hother)
        · obtain rfl : other = src := by simpa using hother
          exact hmem
      refine (runs_scanEntries hrule hW hsplit hbefore later _ seen' s' hbegins
        (List.Subset.trans hpast hsub) hcovers (hW.trace htrace hw) hI').imp
          fun seen'' s'' _ h => ?_
      exact ⟨List.Subset.trans hsub h.1, h.2⟩
    rw [scanEntries]
    by_cases hmem : src.type ∈ seen
    · rw [if_pos (List.contains_iff_mem.mpr hmem)]
      exact hrest .refl (List.Subset.refl _) hmem hI
    · rw [if_neg (by simpa using hmem)]
      refine runs_read.bind fun cached s' _ h => ?_
      obtain ⟨rfl, rfl⟩ := h
      have hsub : seen ⊆ src.type :: seen := List.subset_cons_self ..
      rcases hcached : s'.cache.contains src.type with _ | _
      · -- no source of this type comes before it, neither here nor in an earlier location
        have hscans : Scans v W l src := by
          obtain ⟨rest, hlists⟩ := hbegins
          refine ⟨before, after, hsplit, fun m hm => ?_, earlier, later ++ rest,
            by simpa using hlists, fun other hother heq => hmem (heq ▸ hseen other hother)⟩
          obtain ⟨entries, hlists, hcovers⟩ := hbefore m hm
          exact ⟨entries, hlists, fun other hother heq => hmem (heq ▸ hpast (hcovers other hother))⟩
        have habsent : s'.cache.find? src.type = none := Cache.contains_eq_false.mp hcached
        refine (hrule.build hI hw hscans hmem habsent).bind fun _ s'' htrace hI' => ?_
        exact hrest htrace hsub (List.mem_cons_self ..) hI'
      · exact hrest .refl hsub (List.mem_cons_self ..) (hrule.held hI hcached)

theorem runs_readParts (hrule : ScanRule v W k stuck fuel I) (hW : Steady v W)
    {before after : List (Location σ)} (hsplit : v.project.locations = before ++ l :: after)
    {past : List ClassType}
    (hbefore : ∀ m ∈ before, ∃ entries, Lists v W m entries ∧ Covers past entries)
    {w₀ : σ} (hw₀ : W w₀) :
    ∀ (parts read : Listing σ) (entries : List (Except LocationError (Source σ)))
      (seen : List ClassType) (s : ViewState σ),
      (l.list v.project.naming w₀).1 = .ok (read ++ parts) → Reads W read entries → past ⊆ seen →
      Covers seen entries → W s.world → I seen s →
      Runs v W k stuck (v.readParts fuel l seen parts) s fun r s' =>
        seen ⊆ r.1 ∧ (Lists v W l (entries ++ r.2) ∧ Covers r.1 (entries ++ r.2)) ∧ I r.1 s'
  | [], read, entries, seen, s, hlist, hread, _, hseen, _, hI =>
    runs_pure ⟨List.Subset.refl _,
      ⟨⟨w₀, read, hw₀, by simpa using hlist, by simpa using hread⟩, by simpa using hseen⟩, hI⟩
  | part :: parts, read, entries, seen, s, hlist, hread, hpast, hseen, hw, hI => by
    have hl : l ∈ v.project.locations := by simp [hsplit]
    have hassoc : read ++ part :: parts = (read ++ [part]) ++ parts := by simp
    have hread' : Reads W (read ++ [part]) (entries ++ (part s.world).1) := .snoc part hread hw
    -- the other parts will be read later; in some world they can be read now
    have hbegins : Begins v W l (entries ++ (part s.world).1) := by
      obtain ⟨rest, hrest⟩ := hread'.extend hw parts
      exact ⟨rest, w₀, _, hw₀, hlist, by rwa [hassoc]⟩
    have hworld : WorldStep v W (Chosen v W) s.world (part s.world).2 :=
      .part hl hw₀ hlist (by simp) hw
    rw [readParts]
    refine (runs_inWorld hworld).bind fun held s' htrace h => ?_
    obtain ⟨rfl, rfl⟩ := h
    have hw' := hW _ _ hworld
    refine (runs_scanEntries hrule hW hsplit hbefore _ entries seen _ hbegins hpast hseen hw'
      (hrule.world hI hw')).bind fun seen' s' htrace' h => ?_
    refine (runs_readParts hrule hW hsplit hbefore hw₀ parts _ _ seen' s' (by rwa [← hassoc]) hread'
      (List.Subset.trans hpast h.1) h.2.1 (hW.trace htrace' hw') h.2.2).bind
        fun r s'' _ h' => runs_pure ?_
    rw [← List.append_assoc]
    exact ⟨List.Subset.trans h.1 h'.1, h'.2⟩

/-- **Scanning locations**: every location is listed, and everything that was read was seen. -/
theorem runs_readScan (hrule : ScanRule v W k stuck fuel I) (hW : Steady v W) :
    ∀ (after before : List (Location σ)) (seen : List ClassType) (s : ViewState σ),
      v.project.locations = before ++ after →
      (∀ m ∈ before, ∃ entries, Lists v W m entries ∧ Covers seen entries) → W s.world → I seen s →
      Runs v W k stuck (v.readScan fuel seen after) s fun read s' =>
        ∃ seen', I seen' s' ∧ seen ⊆ seen' ∧ Covers seen' read ∧
          ∀ m ∈ v.project.locations, ∃ entries, Lists v W m entries ∧ Covers seen' entries
  | [], before, seen, s, hsplit, hbefore, _, hI =>
    runs_pure ⟨seen, hI, List.Subset.refl _, by simp [Covers], by simpa [hsplit] using hbefore⟩
  | l :: after, before, seen, s, hsplit, hbefore, hw, hI => by
    have hl : l ∈ v.project.locations := by simp [hsplit]
    have hworld : WorldStep v W (Chosen v W) s.world (l.list v.project.naming s.world).2 :=
      .list hl hw
    rw [readScan]
    refine (runs_inWorld hworld).bind fun held s' _ h => ?_
    obtain ⟨rfl, rfl⟩ := h
    have hw' := hW _ _ hworld
    rcases hlist : (l.list v.project.naming s.world).1 with e | listing
    · exact runs_fail (.list hl hw hlist)
    · refine (runs_readParts hrule hW hsplit hbefore hw listing [] [] seen _ hlist .nil
        (List.Subset.refl _) (by simp [Covers]) hw' (hrule.world hI hw')).bind
          fun r s' htrace h => ?_
      rw [List.nil_append] at h
      refine (runs_readScan hrule hW after (before ++ [l]) r.1 s' (by simpa using hsplit) ?_
        (hW.trace htrace hw') h.2.2).bind fun read s'' _ h' => runs_pure ?_
      · intro m hm
        rcases List.mem_append.mp hm with hm | hm
        · obtain ⟨entries, hlists, hcovers⟩ := hbefore m hm
          exact ⟨entries, hlists, fun other hother => h.1 (hcovers other hother)⟩
        · obtain rfl := List.mem_singleton.mp hm
          exact ⟨_, h.2.1⟩
      · obtain ⟨seen', hI', hsub, hread, hlisted⟩ := h'
        refine ⟨seen', hI', List.Subset.trans h.1 hsub, fun other hother => ?_, hlisted⟩
        rcases List.mem_append.mp hother with hother | hother
        · exact hsub (h.2.1.2 other hother)
        · exact hread other hother

theorem runs_scan (hrule : ScanRule v W k stuck fuel I) (hW : Steady v W)
    (after before : List (Location σ)) (seen : List ClassType) (s : ViewState σ)
    (hsplit : v.project.locations = before ++ after)
    (hbefore : ∀ m ∈ before, ∃ entries, Lists v W m entries ∧ Covers seen entries)
    (hw : W s.world) (hI : I seen s) :
    Runs v W k stuck (v.scan fuel seen after) s fun _ s' =>
      ∃ seen', I seen' s' ∧
        ∀ m ∈ v.project.locations, ∃ entries, Lists v W m entries ∧ Covers seen' entries := by
  rw [scan_eq]
  refine (runs_readScan hrule hW after before seen s hsplit hbefore hw hI).bind
    fun read s' _ h => runs_pure ?_
  obtain ⟨seen', hI', -, -, hlisted⟩ := h
  exact ⟨seen', hI', hlisted⟩

/-- Scanning with builds of which nothing is known but that they are made of steps. -/
theorem scanRule_sound (hW : Steady v W) {n : Nat} :
    ScanRule v W n True fuel fun _ s => Sound v W s ∧ n ≤ s.built.size where
  world hs _ := ⟨hs.1.inWorld _, hs.2⟩
  held hs _ := hs
  build {_ s l src} hs hw hscans _ habsent := by
    have hrun : Runs v W s.built.size True (v.build (v.resolve fuel) l src) s _ :=
      runs_build (I := fun _ _ _ => True) hW hs.1 hw (.inr hscans) (.inl habsent)
        (fun _ _ _ _ => trivial) fun c done a i rest s' _ _ _ hs' hw' _ =>
          (runs_resolve hW hs' hw').imp fun _ _ _ h => ⟨h, fun _ => trivial⟩
    refine (hrun.mono hs.2).imp fun _ s' htrace _ => ?_
    exact ⟨Trace.sound htrace hs.1, hs.2.trans htrace.size_le⟩

variable (v W) in
/-- What becomes of listing every class: the objects are listed and the scan is marked as done, or a
fault ends it and the mark is what it was. -/
def RunsAll (k : Nat) (stuck : Prop) (r : Action σ (List Nat)) (s : ViewState σ)
    (P : ViewState σ → Prop) : Prop :=
  r.Outcome stuck s (fun ids s' => Trace v W k (s.marked true) s' ∧ ids = sortedObjects s' ∧ P s')
    (fun e s' => Trace v W k s s' ∧ Fault v W e)

/-- **Every class of the project**: what is cached, after a scan if there was none before. -/
theorem runs_resolveAll (hrule : ScanRule v W k stuck fuel I) (hW : Steady v W) (hw : W s.world)
    {P : ViewState σ → Prop} (hI : s.complete = false → I [] s) (hdone : s.complete = true → P s)
    (hscanned : ∀ seen s', I seen s' →
      (∀ m ∈ v.project.locations, ∃ entries, Lists v W m entries ∧ Covers seen entries) →
      P (s'.marked true)) :
    RunsAll v W k stuck (v.resolveAll fuel) s P := by
  rw [RunsAll, resolveAll, Run.outcome_bind, Run.outcome_read]
  rcases hcomplete : s.complete with _ | _
  · refine Run.outcome_bind.mpr (Run.Outcome.imp (runs_scan hrule hW v.project.locations [] [] s rfl
      (by simp) hw (hI hcomplete)) (fun _ s₁ h => ?_) fun _ _ he => he)
    obtain ⟨htrace, seen, hI', hlisted⟩ := h
    exact ⟨htrace.marked true, rfl, hscanned seen s₁ hI' hlisted⟩
  · have hmark : s.marked true = s := by rw [ViewState.marked, ← hcomplete]
    exact ⟨hmark ▸ .refl, rfl, hdone hcomplete⟩

end Scan

theorem runs_resolveAll_sound (hW : Steady v W) (hs : Sound v W s) (hw : W s.world) {fuel : Nat} :
    RunsAll v W s.built.size True (v.resolveAll fuel) s fun _ => True :=
  runs_resolveAll (scanRule_sound hW (n := s.built.size)) hW hw (fun _ => ⟨hs, le_rfl⟩)
    (fun _ => trivial) fun _ _ _ _ => trivial

end View

end Classpath
