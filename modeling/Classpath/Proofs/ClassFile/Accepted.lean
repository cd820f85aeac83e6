import Classpath.Proofs.ClassFile.Elements

/-!
# What is accepted as a class file

The reader of class files against their layout, from attributes up to the file: a file is read just
if its bytes are those of a layout that is within its limits and all of whose indices refer to what
they should, and what is read is what the layout resolves to.

* `Classpath.ClassFile.readAttribute_eq_ok` – what an attribute's contents add.
* `Classpath.ClassFile.inverts_readAttributes`, `Classpath.ClassFile.inverts_readMember` – tables of
  attributes, and members.
* `Classpath.ClassFile.parse_eq_ok_iff` – the files.
-/

namespace Classpath.ClassFile

open Reader

variable {pool : ConstantPool} {constants : List RawConstant}

/-! ### Contents of attributes -/

section Regions

variable {α : Type} {r : Reader α} {body : Bytes} {start : Nat} {a : α}

/-- A value that need not fill its region is written by the front of it. -/
theorem exists_eq_ok_iff (hr : r.Streams) :
    (∃ t, r ⟨body, start⟩ = .ok (a, t)) ↔
      ∃ front rest, body = front ++ rest ∧ r.Writes start front a := by
  constructor
  · rintro ⟨t, h⟩
    obtain ⟨front, hbody, hw⟩ := hr.consumes h
    exact ⟨front, t.rest, hbody, hw⟩
  · rintro ⟨front, rest, rfl, hw⟩
    exact ⟨_, hw rest⟩

/-- A value that fills its region is written by all of it. -/
theorem exists_whole_eq_ok_iff (hr : r.Streams) :
    (∃ t, r.whole ⟨body, start⟩ = .ok (a, t)) ↔ r.Writes start body a := by
  constructor
  · rintro ⟨t, h⟩
    exact (hr.whole_eq_ok.1 h).1
  · intro hw
    exact ⟨_, hr.whole_eq_ok.2 ⟨hw, rfl⟩⟩

theorem exists_map_eq_ok_iff {β : Type} {f : α → β} {b : β} {s : Region} :
    (∃ t, (r >>= fun a => (pure (f a) : Reader β)) s = .ok (b, t)) ↔
      ∃ a, (∃ t, r s = .ok (a, t)) ∧ b = f a := by
  simp only [bind_eq_ok, pure_apply, Except.ok.injEq, Prod.mk.injEq]
  constructor
  · rintro ⟨t, a, u, ha, rfl, rfl⟩
    exact ⟨a, ⟨u, ha⟩, rfl⟩
  · rintro ⟨a, ⟨u, ha⟩, rfl⟩
    exact ⟨u, a, u, ha, rfl, rfl⟩

end Regions

/-- Code is read from the front of its attribute: two sizes and at least one instruction. -/
theorem writes_readCode {o : Nat} {front : Bytes} {c : Code} :
    readCode.Writes o front c ↔
      c.instructions ≠ [] ∧ c.instructions.length < 2 ^ 32 ∧
        front = bigEndian 2 c.maxStack.toNat ++ (bigEndian 2 c.maxLocals.toNat ++
          (bigEndian 4 c.instructions.length ++ c.instructions)) := by
  simp only [readCode, writes_bind streams_u16, writes_bind still_offset.streams,
    writes_bind streams_u32, writes_u16, writes_u32, writes_offset]
  constructor
  · rintro ⟨maxStack, _, _, rfl, rfl, maxLocals, _, _, rfl, rfl, _, _, _, rfl, ⟨rfl, rfl⟩, length,
      _, _, rfl, rfl, h⟩
    split at h
    · exact (writes_fail.1 h).elim
    · rename_i hlength
      simp only [writes_bind (streams_bytes _), writes_bytes, writes_pure] at h
      obtain ⟨instructions, _, _, rfl, ⟨rfl, hlen⟩, rfl, rfl⟩ := h
      refine ⟨?_, hlen ▸ length.toNat_lt, ?_⟩
      · rintro rfl
        exact hlength (UInt32.toNat_inj.1 hlen.symm)
      · rw [hlen, List.nil_append, List.append_nil]
  · obtain ⟨maxStack, maxLocals, instructions⟩ := c
    rintro ⟨hne, hlt, rfl⟩
    have hlen : (UInt32.ofNat instructions.length).toNat = instructions.length :=
      UInt32.toNat_ofNat_of_lt' hlt
    refine ⟨maxStack, _, _, rfl, rfl, maxLocals, _, _, rfl, rfl, _, [], _, rfl, ⟨rfl, rfl⟩,
      UInt32.ofNat instructions.length, _, _, rfl, by rw [hlen], ?_⟩
    rw [if_neg]
    · simp only [writes_bind (streams_bytes _), writes_bytes, writes_pure]
      exact ⟨instructions, _, [], (List.append_nil _).symm, ⟨rfl, hlen.symm⟩, rfl, rfl⟩
    · intro h
      rw [h] at hlen
      exact hne (List.length_eq_zero_iff.1 hlen.symm)

/-- What an attribute adds to the ones before it. -/
def Attributes.add (before : Attributes) : AttributeValue → Attributes
  | .visible annotations => { before with visible := before.visible ++ annotations }
  | .invisible annotations => { before with invisible := before.invisible ++ annotations }
  | .default value => { before with defaultValue := some value }
  | .code code => { before with code := some code }
  | .other => before

/-- Adding attributes one by one is taking them together. -/
theorem Attributes.foldl_add (before : Attributes) (values : List AttributeValue) :
    values.foldl Attributes.add before =
      { visible := before.visible ++ values.flatMap (·.visible?)
        invisible := before.invisible ++ values.flatMap (·.invisible?)
        code := (values.filterMap (·.code?)).getLast?.or before.code
        defaultValue := (values.filterMap (·.default?)).getLast?.or before.defaultValue } := by
  induction values generalizing before with
  | nil => simp
  | cons v vs ih =>
    rw [List.foldl_cons, ih]
    cases v <;>
      simp [Attributes.add, AttributeValue.visible?, AttributeValue.invisible?,
        AttributeValue.code?, AttributeValue.default?, List.getLast?_cons]

theorem Attributes.foldl_add_empty (values : List AttributeValue) :
    values.foldl Attributes.add {} = .ofValues values := by
  rw [Attributes.foldl_add, Attributes.ofValues]
  simp

/-! The contents that go with each of the names that are looked into. -/

theorem RawBody.eq_visible {x : RawBody} (h : x.IsNamed "RuntimeVisibleAnnotations") :
    ∃ annotations, x = .visible annotations := by
  cases x with
  | visible annotations => exact ⟨annotations, rfl⟩
  | _ => simp [RawBody.IsNamed, knownAttributes] at h

theorem RawBody.eq_invisible {x : RawBody} (h : x.IsNamed "RuntimeInvisibleAnnotations") :
    ∃ annotations, x = .invisible annotations := by
  cases x with
  | invisible annotations => exact ⟨annotations, rfl⟩
  | _ => simp [RawBody.IsNamed, knownAttributes] at h

theorem RawBody.eq_default {x : RawBody} (h : x.IsNamed "AnnotationDefault") :
    ∃ value, x = .default value := by
  cases x with
  | default value => exact ⟨value, rfl⟩
  | _ => simp [RawBody.IsNamed, knownAttributes] at h

theorem RawBody.eq_code {x : RawBody} (h : x.IsNamed "Code") :
    ∃ maxStack maxLocals instructions rest, x = .code maxStack maxLocals instructions rest := by
  cases x with
  | code maxStack maxLocals instructions rest => exact ⟨_, _, _, _, rfl⟩
  | _ => simp [RawBody.IsNamed, knownAttributes] at h

/-- Nothing else goes with a name that is not looked into. -/
theorem RawBody.eq_other {x : RawBody} {name : String} (h : x.IsNamed name)
    (hname : name ∉ knownAttributes) : ∃ contents, x = .other contents := by
  cases x with
  | other contents => exact ⟨contents, rfl⟩
  | _ => exact (hname (by rw [RawBody.IsNamed] at h; simp [h, knownAttributes])).elim

/-- **What the contents of an attribute add** is what they resolve to, by the attribute's name. -/
theorem readAttribute_eq_ok (h : pool.Denotes constants) {name : String}
    {before after : Attributes} {body : Bytes} {start : Nat} :
    (∃ t, readAttribute pool name before ⟨body, start⟩ = .ok (after, t)) ↔
      ∃ x : RawBody, x.Fits ∧ x.IsNamed name ∧ x.bytes = body ∧
        ∃ v, x.resolve? constants = some v ∧ after = before.add v := by
  rw [readAttribute.eq_def]
  split
  · rw [exists_map_eq_ok_iff]
    simp only [exists_whole_eq_ok_iff streams_readAnnotations, inverts_readAnnotations h _ _ _]
    constructor
    · rintro ⟨as, ⟨xs, hfits, rfl, hres⟩, rfl⟩
      exact ⟨.visible xs, hfits, rfl, rfl, .visible as, by simp [RawBody.resolve?, hres], rfl⟩
    · rintro ⟨x, hfits, hname, rfl, v, hv, rfl⟩
      obtain ⟨xs, rfl⟩ := RawBody.eq_visible hname
      obtain ⟨as, has, rfl⟩ := Option.map_eq_some_iff.1 hv
      exact ⟨as, ⟨xs, hfits, rfl, has⟩, rfl⟩
  · rw [exists_map_eq_ok_iff]
    simp only [exists_whole_eq_ok_iff streams_readAnnotations, inverts_readAnnotations h _ _ _]
    constructor
    · rintro ⟨as, ⟨xs, hfits, rfl, hres⟩, rfl⟩
      exact ⟨.invisible xs, hfits, rfl, rfl, .invisible as, by simp [RawBody.resolve?, hres], rfl⟩
    · rintro ⟨x, hfits, hname, rfl, v, hv, rfl⟩
      obtain ⟨xs, rfl⟩ := RawBody.eq_invisible hname
      obtain ⟨as, has, rfl⟩ := Option.map_eq_some_iff.1 hv
      exact ⟨as, ⟨xs, hfits, rfl, has⟩, rfl⟩
  · rw [exists_map_eq_ok_iff]
    simp only [exists_whole_eq_ok_iff streams_readElementValue, inverts_readElementValue h _ _ _]
    constructor
    · rintro ⟨w, ⟨x, hfits, rfl, hres⟩, rfl⟩
      exact ⟨.default x, hfits, rfl, rfl, .default w, by simp [RawBody.resolve?, hres], rfl⟩
    · rintro ⟨x, hfits, hname, rfl, v, hv, rfl⟩
      obtain ⟨w, rfl⟩ := RawBody.eq_default hname
      obtain ⟨u, hu, rfl⟩ := Option.map_eq_some_iff.1 hv
      exact ⟨u, ⟨w, hfits, rfl, hu⟩, rfl⟩
  · rw [exists_map_eq_ok_iff]
    simp only [exists_eq_ok_iff streams_readCode, writes_readCode]
    constructor
    · rintro ⟨c, ⟨front, rest, rfl, hne, hlt, rfl⟩, rfl⟩
      refine ⟨.code c.maxStack c.maxLocals c.instructions rest, hlt, rfl, ?_, .code c, ?_, rfl⟩
      · simp only [RawBody.bytes, List.append_assoc]
      · rw [RawBody.resolve?, if_neg hne]
    · rintro ⟨x, hfits, hname, rfl, v, hv, rfl⟩
      obtain ⟨maxStack, maxLocals, instructions, rest, rfl⟩ := RawBody.eq_code hname
      rw [RawBody.resolve?] at hv
      split at hv
      · cases hv
      · rename_i hne
        obtain rfl := Option.some.inj hv
        refine ⟨⟨maxStack, maxLocals, instructions⟩, ⟨_, rest, ?_, hne, hfits, rfl⟩, rfl⟩
        simp only [RawBody.bytes, List.append_assoc]
  · rename_i h₁ h₂ h₃ h₄
    have hname : name ∉ knownAttributes := by
      simp only [knownAttributes, List.mem_cons, List.not_mem_nil, or_false, not_or]
      exact ⟨h₁, h₂, h₃, h₄⟩
    simp only [pure_apply, Except.ok.injEq, Prod.mk.injEq, exists_and_left, exists_eq', and_true]
    constructor
    · rintro rfl
      exact ⟨.other body, trivial, hname, rfl, .other, rfl, rfl⟩
    · rintro ⟨x, -, hx, -, v, hv, rfl⟩
      obtain ⟨contents, rfl⟩ := RawBody.eq_other hx hname
      obtain rfl := Option.some.inj hv
      rfl

/-! ### Tables of attributes -/

theorem RawAttribute.resolve?_eq_some {a : RawAttribute} {v : AttributeValue} :
    a.resolve? constants = some v ↔ ∃ name, text? constants a.name = some name ∧
      a.body.IsNamed name ∧ a.body.resolve? constants = some v := by
  simp only [RawAttribute.resolve?, Option.bind_eq_bind, Option.bind_eq_some_iff,
    Option.ite_none_right_eq_some]

/-- Attributes add what they resolve to, one after the other. -/
theorem writes_readAttributesAfter (h : pool.Denotes constants) {before after : Attributes}
    {n o : Nat} {front : Bytes} :
    (readAttributesAfter pool before n).Writes o front after ↔
      ∃ as : List RawAttribute, as.length = n ∧ (∀ a ∈ as, a.Fits) ∧
        as.flatMap RawAttribute.bytes = front ∧
        ∃ vs, as.mapM (RawAttribute.resolve? constants) = some vs ∧
          after = vs.foldl Attributes.add before := by
  induction n generalizing before o front with
  | zero =>
    rw [readAttributesAfter, writes_pure]
    constructor
    · rintro ⟨rfl, rfl⟩
      exact ⟨[], rfl, by simp, rfl, [], rfl, rfl⟩
    · rintro ⟨as, hlen, -, rfl, vs, hvs, rfl⟩
      obtain rfl := List.length_eq_zero_iff.1 hlen
      obtain rfl : vs = [] := by simpa using hvs.symm
      exact ⟨rfl, rfl⟩
  | succ n ih =>
    simp only [readAttributesAfter, writes_bind (streams_reference _), writes_bind streams_u32,
      writes_bind still_offset.streams, writes_bind (streams_bytes _),
      writes_bind (still_within _ _).streams, writes_reference, writes_u32, writes_offset,
      writes_bytes, writes_within, h.utf8_eq_ok, readAttribute_eq_ok h, ih]
    constructor
    · rintro ⟨name, _, _, rfl, ⟨i, rfl, hname⟩, length, _, _, rfl, rfl, _, _, _, rfl, ⟨rfl, rfl⟩,
        body, _, _, rfl, ⟨rfl, hlen⟩, after', _, _, rfl, ⟨rfl, x, hfits, hnamed, rfl, v, hv, rfl⟩,
        as, hn, has, rfl, vs, hvs, rfl⟩
      refine ⟨⟨i, x⟩ :: as, by rw [List.length_cons, hn],
        List.forall_mem_cons.2 ⟨⟨hlen ▸ length.toNat_lt, hfits⟩, has⟩, ?_, v :: vs, ?_, rfl⟩
      · simp [RawAttribute.bytes, hlen]
      · have hx : RawAttribute.resolve? constants ⟨i, x⟩ = some v :=
          RawAttribute.resolve?_eq_some.2 ⟨name, hname, hnamed, hv⟩
        simp [List.mapM_cons, hx, hvs]
    · rintro ⟨_ | ⟨⟨i, x⟩, as⟩, hn, hfits, rfl, ws, hws, rfl⟩
      · cases hn
      · obtain ⟨⟨hlt, hx⟩, has⟩ := List.forall_mem_cons.1 hfits
        obtain ⟨v, hv, vs, hvs, rfl⟩ : ∃ v, RawAttribute.resolve? constants ⟨i, x⟩ = some v ∧
            ∃ vs, as.mapM (RawAttribute.resolve? constants) = some vs ∧ v :: vs = ws := by
          simpa [List.mapM_cons, Option.bind_eq_some_iff] using hws
        obtain ⟨name, hname, hnamed, hv⟩ := RawAttribute.resolve?_eq_some.1 hv
        have hlen : (UInt32.ofNat x.bytes.length).toNat = x.bytes.length :=
          UInt32.toNat_ofNat_of_lt' hlt
        refine ⟨name, indexBytes i, _, ?_, ⟨i, rfl, hname⟩, UInt32.ofNat x.bytes.length, _,
          x.bytes ++ as.flatMap RawAttribute.bytes, rfl, rfl, _, [], _, rfl, ⟨rfl, rfl⟩, x.bytes,
          x.bytes, as.flatMap RawAttribute.bytes, rfl, ⟨rfl, hlen.symm⟩, before.add v, [], _, rfl,
          ⟨rfl, x, hx, hnamed, rfl, v, hv, rfl⟩, as, Nat.succ.inj hn, has, rfl, vs, hvs, rfl⟩
        simp [RawAttribute.bytes, hlen]

/-- **Tables of attributes** are read as they are laid out. -/
theorem inverts_readAttributes (h : pool.Denotes constants) :
    Inverts (readAttributes pool)
      (fun as => as.length < 2 ^ 16 ∧ ∀ a ∈ as, RawAttribute.Fits a)
      (tableBytes RawAttribute.bytes) (attributes? constants) := by
  intro o front after
  simp only [readAttributes, writes_bind streams_u16, writes_u16, writes_readAttributesAfter h,
    Attributes.foldl_add_empty, attributes?, Option.map_eq_some_iff]
  constructor
  · rintro ⟨count, _, _, rfl, rfl, as, hlen, has, rfl, vs, hvs, rfl⟩
    exact ⟨as, ⟨hlen ▸ count.toNat_lt, has⟩, by rw [tableBytes, hlen], vs, hvs, rfl⟩
  · rintro ⟨as, ⟨hlt, has⟩, rfl, vs, hvs, rfl⟩
    have hlen : (UInt16.ofNat as.length).toNat = as.length := UInt16.toNat_ofNat_of_lt' hlt
    exact ⟨UInt16.ofNat as.length, _, _, rfl, by rw [hlen], as, hlen.symm, has, rfl, vs, hvs, rfl⟩

/-! ### Members and files -/

/-- **Members** are read as they are laid out. -/
theorem inverts_readMember (h : pool.Denotes constants) :
    Inverts (readMember pool) RawMember.Fits RawMember.bytes (RawMember.resolve? constants) := by
  intro o front m
  simp only [readMember, writes_bind streams_u16, writes_bind (streams_reference _),
    writes_bind streams_readAttributes, writes_u16, writes_reference, writes_pure, h.utf8_eq_ok,
    inverts_readAttributes h _ _ _]
  constructor
  · rintro ⟨flags, _, _, rfl, rfl, name, _, _, rfl, ⟨i, rfl, hname⟩, descriptor, _, _, rfl,
      ⟨j, rfl, hdescriptor⟩, attributes, _, _, rfl, ⟨as, has, rfl, hres⟩, rfl, rfl⟩
    refine ⟨⟨flags, i, j, as⟩, has, ?_, ?_⟩
    · rw [RawMember.bytes, List.append_nil]
    · simp [RawMember.resolve?, hname, hdescriptor, hres]
  · rintro ⟨⟨flags, i, j, as⟩, has, rfl, hres⟩
    obtain ⟨name, hname, descriptor, hdescriptor, attributes, hattributes, rfl⟩ :
        ∃ name, text? constants i = some name ∧ ∃ descriptor, text? constants j = some descriptor ∧
          ∃ attributes, attributes? constants as = some attributes ∧
            ⟨flags, name, descriptor, attributes⟩ = m := by
      simpa [RawMember.resolve?, Option.bind_eq_some_iff] using hres
    exact ⟨flags, _, _, rfl, rfl, name, _, _, rfl, ⟨i, rfl, hname⟩, descriptor, _, _, rfl,
      ⟨j, rfl, hdescriptor⟩, attributes, _, [], (List.append_nil _).symm,
      ⟨as, has, rfl, hattributes⟩, rfl, rfl⟩

theorem inverts_className (h : pool.Denotes constants) :
    Inverts (reference pool.className) (fun _ => True) indexBytes (className? constants) := by
  intro o front name
  simp only [writes_reference, h.className_eq_ok, true_and, eq_comm]

/-- A file resolves if all of its parts do. -/
theorem RawClassFile.resolve?_eq_some {f : RawClassFile} {c : ClassFile} :
    f.resolve? = some c ↔
      ∃ slots, decodedSlots? f.constants = some slots ∧
      ∃ name, className? f.constants f.name = some name ∧
      ∃ superName, superName? f.constants f.superName = some superName ∧
      ∃ interfaces, f.interfaces.mapM (className? f.constants) = some interfaces ∧
      ∃ fields, f.fields.mapM (RawMember.resolve? f.constants) = some fields ∧
      ∃ methods, f.methods.mapM (RawMember.resolve? f.constants) = some methods ∧
      ∃ attributes, attributes? f.constants f.attributes = some attributes ∧
      c = ⟨f.minorVersion, f.majorVersion, f.flags, name, superName, interfaces, fields, methods,
        attributes⟩ := by
  simp only [RawClassFile.resolve?, decodedSlots?, Option.bind_eq_bind, Option.bind_eq_some_iff,
    Option.map_eq_some_iff, Option.pure_def, Option.some_inj, eq_comm (a := c)]
  constructor
  · rintro ⟨es, hes, rest⟩
    exact ⟨_, ⟨es, hes, rfl⟩, rest⟩
  · rintro ⟨_, ⟨es, hes, -⟩, rest⟩
    exact ⟨es, hes, rest⟩

/-- The reader of what follows the constants. -/
def readContents (pool : ConstantPool) (minorVersion majorVersion : UInt16) :
    Reader ClassFile := do
  let flags ← Reader.u16
  let name ← Reader.reference pool.className
  let superName ← Reader.reference (superclassAt pool)
  let interfaces ← readTable (Reader.reference pool.className)
  let fields ← readTable (readMember pool)
  let methods ← readTable (readMember pool)
  let attributes ← readAttributes pool
  return { minorVersion, majorVersion, flags, name, superName, interfaces, fields, methods
           attributes }

/-- What follows the constants is read as it is laid out. -/
theorem writes_readContents {slots : List (Option PoolEntry)} {minor major : UInt16} {o : Nat}
    {front : Bytes} {c : ClassFile} (hslots : decodedSlots? constants = some slots)
    (hcount : (slotsOf RawConstant.isWide constants).length + 1 < 2 ^ 16)
    (hconstants : ∀ c ∈ constants, c.Fits) :
    (readContents ⟨(none :: slots).toArray⟩ minor major).Writes o front c ↔
      ∃ f : RawClassFile, f.minorVersion = minor ∧ f.majorVersion = major ∧
        f.constants = constants ∧ f.Fits ∧ f.contents = front ∧ f.resolve? = some c := by
  have hpool := denotes_of_decodedSlots? hslots
  simp only [readContents, writes_bind streams_u16, writes_u16, writes_bind (streams_reference _),
    writes_reference, hpool.className_eq_ok, hpool.superclassAt_eq_ok,
    writes_bind (streams_readTable (streams_reference _)),
    writes_bind (streams_readTable streams_readMember), writes_bind streams_readAttributes,
    writes_pure, (inverts_className hpool).table (streams_reference _) _ _ _,
    (inverts_readMember hpool).table streams_readMember _ _ _, inverts_readAttributes hpool _ _ _]
  constructor
  · rintro ⟨flags, _, _, rfl, rfl, name, _, _, rfl, ⟨i, rfl, hname⟩, superName, _, _, rfl,
      ⟨j, rfl, hsuper⟩, interfaces, _, _, rfl, ⟨is, ⟨his, -⟩, rfl, hinterfaces⟩, fields, _, _, rfl,
      ⟨fs, ⟨hfs, hfs'⟩, rfl, hfields⟩, methods, _, _, rfl, ⟨ms, ⟨hms, hms'⟩, rfl, hmethods⟩,
      attributes, _, _, rfl, ⟨as, ⟨has, has'⟩, rfl, hattributes⟩, rfl, rfl⟩
    refine ⟨⟨minor, major, constants, flags, i, j, is, fs, ms, as⟩, rfl, rfl, rfl,
      ⟨hcount, hconstants, his, hfs, hfs', hms, hms', has, has'⟩, ?_, ?_⟩
    · rw [RawClassFile.contents, List.append_nil]
    · exact RawClassFile.resolve?_eq_some.2 ⟨slots, hslots, name, hname, superName, hsuper,
        interfaces, hinterfaces, fields, hfields, methods, hmethods, attributes, hattributes, rfl⟩
  · rintro ⟨f, rfl, rfl, rfl, hfits, rfl, hres⟩
    obtain ⟨-, -, name, hname, superName, hsuper, interfaces, hinterfaces, fields, hfields, methods,
      hmethods, attributes, hattributes, rfl⟩ := RawClassFile.resolve?_eq_some.1 hres
    exact ⟨f.flags, _, _, rfl, rfl, name, _, _, rfl, ⟨f.name, rfl, hname⟩, superName, _, _, rfl,
      ⟨f.superName, rfl, hsuper⟩, interfaces, _, _, rfl,
      ⟨f.interfaces, ⟨hfits.interfaces, fun _ _ => trivial⟩, rfl, hinterfaces⟩, fields, _, _, rfl,
      ⟨f.fields, ⟨hfits.fieldCount, hfits.fields⟩, rfl, hfields⟩, methods, _, _, rfl,
      ⟨f.methods, ⟨hfits.methodCount, hfits.methods⟩, rfl, hmethods⟩, attributes, _, [],
      (List.append_nil _).symm, ⟨f.attributes, ⟨hfits.attributeCount, hfits.attributes⟩, rfl,
        hattributes⟩, rfl, rfl⟩

/-- A file is the magic number, the version, the constants and what follows them. -/
theorem read_eq : read = u32 >>= fun found =>
    if found ≠ magic then Reader.fail (.badMagic found) 0
    else u16 >>= fun minor => u16 >>= fun major => ConstantPool.read >>= fun pool =>
      readContents pool minor major :=
  rfl

/-- **What is accepted as a class file.** Bytes are read as a class file just if they are those of a
layout within its limits that resolves, and what is read is what it resolves to. -/
theorem parse_eq_ok_iff (contents : Bytes) (c : ClassFile) :
    parse contents = .ok c ↔
      ∃ f : RawClassFile, f.Fits ∧ f.bytes = contents ∧ f.resolve? = some c := by
  rw [parse_eq_ok, read_eq, writes_bind streams_u32]
  simp only [writes_u32]
  constructor
  · rintro ⟨found, _, g, rfl, rfl, h⟩
    split at h
    · exact (writes_fail.1 h).elim
    · rename_i hmagic
      obtain rfl : found = magic := not_not.1 hmagic
      simp only [writes_bind streams_u16, writes_bind ConstantPool.streams_read,
        ConstantPool.writes_read, writes_u16] at h
      obtain ⟨minor, _, _, rfl, rfl, major, _, _, rfl, rfl, pool, _, _, rfl,
        ⟨cs, hcount, hcs, rfl, slots, hslots, rfl⟩, h⟩ := h
      obtain ⟨f, rfl, rfl, rfl, hfits, rfl, hres⟩ := (writes_readContents hslots hcount hcs).1 h
      exact ⟨f, hfits, rfl, hres⟩
  · rintro ⟨f, hfits, rfl, hres⟩
    obtain ⟨slots, hslots, -⟩ := RawClassFile.resolve?_eq_some.1 hres
    refine ⟨magic, _, _, rfl, rfl, ?_⟩
    rw [if_neg (not_not.2 rfl)]
    simp only [writes_bind streams_u16, writes_bind ConstantPool.streams_read, writes_u16]
    refine ⟨f.minorVersion, _, _, rfl, rfl, f.majorVersion, _, _, rfl, rfl,
      ⟨(none :: slots).toArray⟩, _, _, rfl, ConstantPool.writes_read.2
        ⟨f.constants, hfits.constantCount, hfits.constants, rfl, slots, hslots, rfl⟩, ?_⟩
    exact (writes_readContents hslots hfits.constantCount hfits.constants).2
      ⟨f, rfl, rfl, rfl, hfits, rfl, hres⟩

-- a file of two constants, the second of which names the class by the first
example :
    let f : RawClassFile :=
      { minorVersion := 0, majorVersion := 52, constants := [.utf8 [0x41], .classRef 1]
        flags := 0x21, name := 2, superName := 0, interfaces := [], fields := [], methods := []
        attributes := [] }
    f.bytes = [0xCA, 0xFE, 0xBA, 0xBE, 0, 0, 0, 52, 0, 3, 1, 0, 1, 0x41, 7, 0, 1,
      0, 0x21, 0, 2, 0, 0, 0, 0, 0, 0, 0, 0, 0, 0] ∧ f.resolve?.map (·.name) = some "A" :=
  ⟨by decide, rfl⟩

end Classpath.ClassFile
