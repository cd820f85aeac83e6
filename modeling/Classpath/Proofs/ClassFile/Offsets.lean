import Classpath.Proofs.ClassFile.Numbering

/-!
# What the offset of an error says

An error of reading a class file has an offset that is in the file, and it is an offset of the file
also where the contents of an attribute were read, from a region of their own. What it says depends
on the cause. Too few bytes are reported where the read of them starts, surplus ones where they
start, and what an index refers to where the two bytes of that index stand. One error is about all
of the constants: they take more numbers than they are declared to, and it is placed at their end.

* `Classpath.ClassFile.ReadIn` – the regions of a file that are read, and by what.
* `Classpath.ClassFile.DanglesAt`, `Classpath.ClassFile.OverrunsAt` – what is said of constants.
* `Classpath.ClassFile.IsPlace` – what the offset says, by the cause.
* `Classpath.ClassFile.parse_error_located` – every error has such an offset.
-/

namespace Classpath.ClassFile

open Reader

/-! ### Places in a file -/

/-- **The regions of a file that are read**, and their readers: the file, and the contents of the
attributes that its reader comes to, which stand after the index of a name and a length. -/
inductive ReadIn (contents : Bytes) : (α : Type) → Reader α → Region → Prop
  | file : ReadIn contents ClassFile read.whole ⟨contents, 0⟩
  | body {pool : ConstantPool} {t : Region} {before : Attributes} {n : Nat} {index : UInt16}
    {name : String} {front body rest : Bytes}
    (pool_eq : ConstantPool.read ⟨contents.drop 8, 8⟩ = .ok (pool, t))
    (comes : read.whole.ComesTo 0 front (readAttributesAfter pool before (n + 1)))
    (contents_eq : contents =
      front ++ (indexBytes index ++ (bigEndian 4 body.length ++ (body ++ rest))))
    (lt : body.length < 2 ^ 32) (named : pool.utf8 index = .ok name) :
    ReadIn contents Attributes (readAttribute pool name before) ⟨body, front.length + 6⟩

/-- **A dangling index**: at `o` stand the two bytes of an index, the reader of the region comes to
reading a reference there, and following it into the constants of the file fails for the cause. -/
inductive DanglesAt (contents : Bytes) {α : Type} (r : Reader α) (region : Region) (o : Nat)
    (cause : Cause) : Prop
  | intro {pool : ConstantPool} {t : Region} {γ : Type} {find : UInt16 → Except ReadError γ}
    {i : UInt16} {before after front rest : Bytes}
    (pool_eq : ConstantPool.read ⟨contents.drop 8, 8⟩ = .ok (pool, t))
    (lookup : pool.Lookup γ find) (fails : find i = .error ⟨cause, none⟩)
    (contents_eq : contents = before ++ (indexBytes i ++ after)) (offset_eq : o = before.length)
    (rest_eq : region.rest = front ++ (indexBytes i ++ rest))
    (front_eq : o = region.offset + front.length)
    (comes : r.ComesTo region.offset front (reference find))

/-- **Constants that overrun their number**: those that end at `o` take all of the numbers up to the
declared count, the number 0 left out, and that is one too many. -/
inductive OverrunsAt (contents : Bytes) (o : Nat) (cause : Cause) : Prop
  | intro {count : UInt16} {cs : List RawConstant} {rest : Bytes} (fits : ∀ c ∈ cs, c.Fits)
    (slots : (slotsOf RawConstant.isWide cs).length = count.toNat)
    (contents_eq : contents.drop 8 =
      bigEndian 2 count.toNat ++ (cs.flatMap RawConstant.bytes ++ rest))
    (offset_eq : o = 10 + (cs.flatMap RawConstant.bytes).length)
    (cause_eq : cause = .badConstantIndex count)

/-- **What the offset of an error says**, when it is met in a region of a file by a reader. -/
structure IsPlace (contents : Bytes) {α : Type} (r : Reader α) (region : Region) (cause : Cause)
    (o : Nat) : Prop where
  le : o ≤ contents.length
  /-- The reader comes to a read of more bytes than there are from the offset to the end. -/
  truncated : cause = .truncated → ∃ front rest n, region.rest = front ++ rest ∧
    o = region.offset + front.length ∧ r.ComesTo region.offset front (bytes n) ∧ rest.length < n
  trailing : ∀ n, cause = .trailingBytes n → o + n = region.offset + region.rest.length
  reference : cause.OfReference →
    DanglesAt contents r region o cause ∨ OverrunsAt contents o cause

section Places

variable {contents : Bytes} {α : Type} {r : Reader α} {region : Region} {e : ReadError} {F : Faults}

/-- A region that is read is a part of the file, and knows where it is. -/
theorem ReadIn.exists_append (h : ReadIn contents α r region) :
    ∃ before after, contents = before ++ (region.rest ++ after) ∧
      region.offset = before.length := by
  cases h with
  | file => exact ⟨[], [], by simp, rfl⟩
  | @body _ _ _ _ index _ front body rest _ _ contents_eq =>
    exact ⟨front ++ (indexBytes index ++ bigEndian 4 body.length), rest, by simp [contents_eq],
      by simp [indexBytes]⟩

/-- What indices refer to is not what else can be wrong. -/
theorem Cause.LooksBack.not_ofReference {cause : Cause} (h : cause.LooksBack) :
    ¬cause.OfReference := by
  cases cause with
  | badAttribute name =>
    obtain rfl : name = "Code" := h
    intro hcause
    have hname : "Code" = "char element_value" := hcause
    exact absurd hname (by decide)
  | badMagic _ | badConstantTag _ | badModifiedUtf8 | badElementTag _ => exact id
  | _ => exact fun _ => h

/-- The place of an error about an index is that of the index. -/
theorem isPlace_of_reference {cause : Cause} {o : Nat} (hcause : cause.OfReference)
    (le : o ≤ contents.length)
    (h : DanglesAt contents r region o cause ∨ OverrunsAt contents o cause) :
    IsPlace contents r region cause o where
  le := le
  truncated := by
    rintro rfl
    exact hcause.elim
  trailing := by
    rintro n rfl
    exact hcause.elim
  reference _ := h

/-- **Located errors have places**, but for the faults that a format adds to those of readers. -/
theorem Reader.Located.exists_isPlace (hin : ReadIn contents α r region)
    (h : Located F r region e) :
    (∃ o, e.offset = some o ∧ IsPlace contents r region e.cause o) ∨
      ∃ (front rest : Bytes) (γ : Type) (p : Reader γ), region.rest = front ++ rest ∧
        r.ComesTo region.offset front p ∧ F γ p ⟨rest, region.offset + front.length⟩ e := by
  obtain ⟨before, after, hcontents, hoffset⟩ := hin.exists_append
  have hlen : region.offset + region.rest.length ≤ contents.length := by
    rw [hcontents, hoffset, List.length_append, List.length_append]
    omega
  cases h with
  | @read front rest γ p _ rest_eq comes fault =>
    have hfront : region.rest.length = front.length + rest.length := by
      rw [rest_eq, List.length_append]
    have hle : region.offset + front.length ≤ contents.length := by omega
    cases fault with
    | short lt =>
      refine .inl ⟨_, rfl, ⟨hle, fun _ => ⟨front, rest, _, rest_eq, rfl, comes, lt⟩, ?_, ?_⟩⟩
      · rintro n ⟨⟩
      · exact False.elim
    | trailing ne =>
      refine .inl ⟨_, rfl, ⟨hle, nofun, ?_, False.elim⟩⟩
      rintro n ⟨⟩
      dsimp only
      omega
    | other is => exact .inr ⟨front, rest, γ, p, rest_eq, comes, is⟩
  | @back cause p looks le =>
    refine .inl ⟨p, rfl, ⟨le.trans hlen, ?_, ?_, fun href => absurd href looks.not_ofReference⟩⟩
    · rintro rfl
      exact looks.elim
    · rintro n rfl
      exact looks.elim

/-- References that cannot be followed have the places of the indices. -/
theorem LookupFault.exists_isPlace {pool : ConstantPool} {t : Region} {γ : Type} {p : Reader γ}
    {front rest : Bytes} (hpool : ConstantPool.read ⟨contents.drop 8, 8⟩ = .ok (pool, t))
    (hin : ReadIn contents α r region) (hrest : region.rest = front ++ rest)
    (comes : r.ComesTo region.offset front p)
    (h : LookupFault pool γ p ⟨rest, region.offset + front.length⟩ e) :
    ∃ o, e.offset = some o ∧ IsPlace contents r region e.cause o := by
  obtain ⟨before, after, hcontents, hoffset⟩ := hin.exists_append
  cases h with
  | @intro find i rest _ cause lookup fails =>
    have hsplit : contents = (before ++ front) ++ (indexBytes i ++ (rest ++ after)) := by
      rw [hcontents, hrest]
      simp only [List.append_assoc]
    have ho : region.offset + front.length = (before ++ front).length := by
      rw [hoffset, List.length_append]
    refine ⟨_, rfl, isPlace_of_reference (lookup.unplaced i _ fails).2 ?_
      (.inl (.intro hpool lookup fails hsplit ho hrest rfl comes))⟩
    have hlen := congrArg List.length hsplit
    rw [List.length_append] at hlen
    omega

/-- Constants that overrun their number have their end for a place. -/
theorem HeaderFault.exists_isPlace {γ : Type} {p : Reader γ} {front rest : Bytes}
    (hpool : ConstantPool.read ⟨contents.drop 8, 8⟩ = .error e)
    (hcontents : contents = front ++ rest)
    (h : HeaderFault γ p ⟨rest, 0 + front.length⟩ e) :
    ∃ o, e.offset = some o ∧ IsPlace contents r region e.cause o := by
  cases h with
  | overrun =>
    obtain ⟨rest, cs, t, hcount, hcs, hover, hp⟩ := ConstantPool.read_eq_error_iff.1 hpool
    obtain rfl : rest = cs.flatMap RawConstant.bytes ++ t.rest := hcs.rest_eq
    have hslots := Nat.succ.inj ((length_slotsOf_add_one cs).trans hover.numberOf_length)
    have ho := (Option.some.inj hp).trans hcs.offset_eq
    have hle : 0 + front.length ≤ contents.length := by
      rw [hcontents, List.length_append, Nat.zero_add]
      exact Nat.le_add_right _ _
    exact ⟨_, rfl, isPlace_of_reference trivial hle
      (.inr (.intro hcs.fits hslots hcount ho rfl))⟩

end Places

/-! ### Whole files -/

/-- The magic number and the version. -/
def readVersion : Reader (UInt16 × UInt16) := do
  let found ← Reader.u32
  if found ≠ magic then
    Reader.fail (.badMagic found) 0
  else
    let minor ← Reader.u16
    let major ← Reader.u16
    return (minor, major)

theorem streams_readVersion : readVersion.Streams := by
  refine streams_u32.bind fun found => ?_
  split
  · exact (still_fail _ _).streams
  · exact streams_u16.bind fun _ => streams_u16.bind fun _ => (still_pure _).streams

theorem locates_readVersion {F : Faults} {n : Nat} : LocatesBelow F 0 n readVersion := by
  refine locatesBelow_u32.bind streams_u32 fun found => ?_
  split
  · exact locatesBelow_fail trivial
  · exact locatesBelow_u16.bind streams_u16 fun _ => locatesBelow_u16.map _

/-- The constants start at the offset 8. -/
theorem eq_of_readVersion_eq_ok {contents : Bytes} {version : UInt16 × UInt16} {t : Region}
    (h : readVersion ⟨contents, 0⟩ = .ok (version, t)) : t = ⟨contents.drop 8, 8⟩ := by
  obtain ⟨front, hs, ht, hw⟩ := streams_readVersion.offset_eq h
  have hlen : front.length = 8 := by
    simp only [readVersion, writes_bind streams_u32, writes_u32] at hw
    obtain ⟨found, _, g, rfl, rfl, hw⟩ := hw
    split at hw
    · exact (writes_fail.1 hw).elim
    · simp only [writes_bind streams_u16, writes_u16, writes_pure] at hw
      obtain ⟨minor, _, _, rfl, rfl, major, _, _, rfl, rfl, rfl, -⟩ := hw
      simp
  have hcontents : contents = front ++ t.rest := congrArg Region.rest hs
  rw [ht, hcontents, ← hlen, List.drop_left]
  simp

/-- A file is its version, the constants and what follows them. -/
theorem whole_read_eq : read.whole = readVersion >>= fun version => ConstantPool.read >>=
    fun pool => (readContents pool version.1 version.2).whole := by
  have hread : read = readVersion >>= fun version => ConstantPool.read >>=
      fun pool => readContents pool version.1 version.2 := by
    rw [read_eq, readVersion, Reader.bind_assoc]
    congr 1
    funext found
    split
    · rfl
    · simp only [Reader.bind_assoc]
      rfl
  rw [hread]
  simp only [whole, Reader.bind_assoc]

theorem streams_readContents {pool : ConstantPool} {minor major : UInt16} :
    (readContents pool minor major).Streams :=
  streams_u16.bind fun _ => (streams_reference _).bind fun _ => (streams_reference _).bind fun _ =>
    (streams_readTable (streams_reference _)).bind fun _ =>
      (streams_readTable streams_readMember).bind fun _ =>
        (streams_readTable streams_readMember).bind fun _ =>
          streams_readAttributes.bind fun _ => (still_pure _).streams

/-- What is wrong after the constants is wrong in the file, or in the contents of an attribute. -/
theorem TableFault.exists_isPlace {contents : Bytes} {pool : ConstantPool} {t : Region} {γ : Type}
    {p : Reader γ} {front rest : Bytes} {e : ReadError}
    (hpool : ConstantPool.read ⟨contents.drop 8, 8⟩ = .ok (pool, t))
    (hfail : read.whole ⟨contents, 0⟩ = .error e) (hcontents : contents = front ++ rest)
    (comes : read.whole.ComesTo 0 front p) (h : TableFault pool γ p ⟨rest, 0 + front.length⟩ e) :
    ∃ (o : Nat) (α : Type) (r : Reader α) (region : Region),
      e.offset = some o ∧ ReadIn contents α r region ∧ r region = .error e ∧
      IsPlace contents r region e.cause o := by
  cases h with
  | lookup hlookup =>
    obtain ⟨o, ho, hplace⟩ := hlookup.exists_isPlace hpool .file hcontents comes
    exact ⟨o, _, _, _, ho, .file, hfail, hplace⟩
  | @body before n _ index body rest name _ named lt fails =>
    rw [Nat.zero_add] at fails
    have hin := ReadIn.body hpool comes hcontents lt named
    have hlocated : Located (LookupFault pool) (readAttribute pool name before)
        ⟨body, front.length + 6⟩ e :=
      locates_readAttribute name before _ e (Nat.zero_le _) (Nat.lt_succ_self _) fails
    rcases hlocated.exists_isPlace hin with ⟨o, ho, hplace⟩ | ⟨_, _, _, _, hbody, comes, hfault⟩
    · exact ⟨o, _, _, _, ho, hin, fails, hplace⟩
    · obtain ⟨o, ho, hplace⟩ := hfault.exists_isPlace hpool hin hbody comes
      exact ⟨o, _, _, _, ho, hin, fails, hplace⟩

/-- **Errors say where they are.** A class file that cannot be read is reported with an offset in
it, which is the place of what is wrong in the region that was being read: the file or the contents
of an attribute. -/
theorem parse_error_located (contents : Bytes) (e : ReadError) (h : parse contents = .error e) :
    ∃ (o : Nat) (α : Type) (r : Reader α) (region : Region),
      e.offset = some o ∧ ReadIn contents α r region ∧ r region = .error e ∧
      IsPlace contents r region e.cause o := by
  have hfail : read.whole ⟨contents, 0⟩ = .error e := by
    rw [parse, run] at h
    rcases hwhole : read.whole ⟨contents, 0⟩ with e' | x <;> simp [hwhole, Except.map] at h
    rw [h]
  have hparts := hfail
  rw [whole_read_eq] at hparts
  rcases bind_eq_error.1 hparts with hversion | ⟨version, t, hversion, hparts⟩
  · have hlocated : Located (fun _ _ _ _ => False) read.whole ⟨contents, 0⟩ e := by
      rw [whole_read_eq]
      exact (locates_readVersion _ e le_rfl (Nat.lt_succ_self _) hversion).bind
    rcases hlocated.exists_isPlace .file with ⟨o, ho, hplace⟩ | ⟨_, _, _, _, _, _, hfault⟩
    · exact ⟨o, _, _, _, ho, .file, hfail, hplace⟩
    · exact hfault.elim
  · obtain rfl := eq_of_readVersion_eq_ok hversion
    rcases bind_eq_error.1 hparts with hpool | ⟨pool, t, hpool, hparts⟩
    · have hlocated : Located HeaderFault read.whole ⟨contents, 0⟩ e := by
        rw [whole_read_eq]
        exact (ConstantPool.locates_read _ e (Nat.zero_le _) (Nat.lt_succ_self _)
          hpool).bind.of_eq_ok streams_readVersion hversion
      rcases hlocated.exists_isPlace .file with
        ⟨o, ho, hplace⟩ | ⟨front, rest, _, _, hsplit, -, hfault⟩
      · exact ⟨o, _, _, _, ho, .file, hfail, hplace⟩
      · obtain ⟨o, ho, hplace⟩ := hfault.exists_isPlace hpool hsplit
        exact ⟨o, _, _, _, ho, .file, hfail, hplace⟩
    · have hlocated : Located (TableFault pool) read.whole ⟨contents, 0⟩ e := by
        rw [whole_read_eq]
        exact ((locates_readContents.whole streams_readContents _ e (Nat.zero_le _)
          (Nat.lt_succ_self _) hparts).of_eq_ok ConstantPool.streams_read hpool).of_eq_ok
            streams_readVersion hversion
      rcases hlocated.exists_isPlace .file with
        ⟨o, ho, hplace⟩ | ⟨front, rest, _, _, hsplit, comes, hfault⟩
      · exact ⟨o, _, _, _, ho, .file, hfail, hplace⟩
      · exact hfault.exists_isPlace hpool hfail hsplit comes

/-- The class file of a class `A` with a default value that is a string, at an index which nothing
stands at. -/
def danglingContents : Bytes :=
  [0xCA, 0xFE, 0xBA, 0xBE, 0, 0, 0, 52,
    0, 4, 1, 0, 1, 0x41, 7, 0, 1,
    1, 0, 17, 0x41, 0x6E, 0x6E, 0x6F, 0x74, 0x61, 0x74, 0x69, 0x6F, 0x6E,
    0x44, 0x65, 0x66, 0x61, 0x75, 0x6C, 0x74,
    0, 0x21, 0, 2, 0, 0, 0, 0, 0, 0, 0, 0,
    0, 1, 0, 3, 0, 0, 0, 3, 0x73, 0, 9]

theorem parse_error_located_dangling :
    parse danglingContents = .error ⟨.badConstantIndex 9, some 58⟩ ∧
    ∃ (o : Nat) (α : Type) (r : Reader α) (region : Region),
      some 58 = some o ∧ ReadIn danglingContents α r region ∧
      r region = .error ⟨.badConstantIndex 9, some 58⟩ ∧
      IsPlace danglingContents r region (.badConstantIndex 9) o :=
  have h : parse danglingContents = .error ⟨.badConstantIndex 9, some 58⟩ := rfl
  ⟨h, parse_error_located danglingContents _ h⟩

end Classpath.ClassFile
