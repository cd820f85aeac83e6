import Classpath.Frontend
import Classpath.Proofs.ClassFile.Elements
import Classpath.Proofs.Descriptor
import Classpath.Proofs.TextClass.Clauses

/-!
# Class literals in both formats

A class literal names a type, and a class file has it as the descriptor of that type. A text writes
the type as the language does, with a keyword for a primitive type and brackets behind the component
of an array, and the reader of values puts `L` and `;` around whatever stands before `.class`. So
every literal of a text is read as one of a class: `int.class` as the class of the name `int`, and
the literal of an array as a class whose name ends in brackets. The descriptor is a good one in all
cases, and nothing complains.

* `Classpath.TextClass.TypeExpr` – the types that a literal can name, as they are written.
* `Classpath.TextClass.TypeExpr.value_literal` – the class that a literal is read as.
* `Classpath.TextClass.TypeExpr.literal_agrees` – the formats agree on the names of classes, and on
  no other type.
-/

namespace Classpath

/-- The keyword of a primitive type. -/
def Primitive.keyword : Primitive → String
  | byte => "byte"
  | char => "char"
  | double => "double"
  | float => "float"
  | int => "int"
  | long => "long"
  | short => "short"
  | boolean => "boolean"

namespace TextClass

/-- **Type expressions**, as the language writes them. -/
inductive TypeExpr where
  | primitive (type : Primitive)
  /-- A class, by its qualified name. -/
  | named (name : DottedName)
  | array (component : TypeExpr)

namespace TypeExpr

/-- The text of the expression. -/
def source : TypeExpr → List Char
  | primitive type => type.keyword.toList
  | named name => name.text
  | array component => component.source ++ "[]".toList

/-- The type that the expression denotes. -/
def type : TypeExpr → FieldType
  | primitive type => .primitive type
  | named name => .object (String.ofList (replaceChar '.' '/' name.text))
  | array component => .array component.type

/-- The class literal of the type. -/
def literal (T : TypeExpr) : List Char :=
  T.source ++ ".class".toList

/-- The class of which the text of the expression would be the name. -/
def asClass (T : TypeExpr) : FieldType :=
  .object (String.ofList (replaceChar '.' '/' T.source))

/-- The expression is the name of a class. -/
def IsName (T : TypeExpr) : Prop :=
  ∃ name, T = named name

variable (T : TypeExpr)

/-! ### The text of a type -/

theorem source_ne_nil : T.source ≠ [] := by
  cases T with
  | primitive p => cases p <;> decide
  | named name => exact name.nonempty
  | array component => simp [source]

theorem not_semicolon : ';' ∉ T.source := by
  induction T with
  | primitive p => cases p <;> decide
  | named name => exact fun h => (name.chars _ h).2.2.2 rfl
  | array component ih => simp [source, ih]

/-- **Whatever the expression is, it could be the name of a class.** -/
theorem wellNamed_asClass : T.asClass.WellNamed := by
  refine ⟨?_, ?_⟩
  · rw [← String.toList_inj.ne, String.toList_ofList]
    exact fun h => T.source_ne_nil (List.map_eq_nil_iff.mp h)
  · rw [String.toList_ofList]
    intro h
    obtain ⟨c, hc, heq⟩ := List.mem_map.mp h
    split_ifs at heq
    · cases heq
    · exact T.not_semicolon (heq ▸ hc)

theorem wellNamed_type : T.type.WellNamed := by
  induction T with
  | primitive p => trivial
  | named name => exact (named name).wellNamed_asClass
  | array component ih => exact ih

theorem asClass_eq_type_iff : T.asClass = T.type ↔ T.IsName := by
  cases T with
  | primitive p => simp [asClass, type, IsName]
  | named name => exact ⟨fun _ => ⟨name, rfl⟩, fun _ => rfl⟩
  | array component => simp [asClass, type, IsName]

/-! ### The literal of a type -/

/-- A text that ends in `.class` is not in quotes. -/
theorem stringLiteral?_literal : stringLiteral? T.literal = none := by
  have hlast : ¬ ['"'] <:+ T.literal := by
    rw [singleton_suffix_iff]
    simp [literal]
  rcases hstart : ['"'].isPrefixOf? T.literal with _ | rest
  · rw [stringLiteral?, hstart, Option.bind_none]
  · have hrest : rest <:+ T.literal :=
      ⟨['"'], List.isPrefixOf?_eq_some_iff_append_eq.mp hstart⟩
    rw [stringLiteral?, hstart, Option.bind_some]
    exact isSuffixOf?_eq_none fun hquote => hlast (hquote.trans hrest)

/-- **Every literal is read as one of a class.** -/
theorem value_literal (ids : Naming) :
    value ids T.literal = .ok (.classLiteral T.asClass.text) := by
  have hlong : 6 ≤ T.literal.length := by simp [literal]
  have hne : ∀ {s : List Char}, s.length < 6 → T.literal ≠ s := fun hs h =>
    absurd (h ▸ hlong) (Nat.not_le.mpr hs)
  rw [value, if_neg (hne (by decide)), if_neg (hne (by decide)), T.stringLiteral?_literal]
  dsimp only
  rw [literal, isSuffixOf?_append]
  simp only [asClass, FieldType.text, FieldType.chars, String.toList_ofList]

example : value .plain "a.C[].class".toList = .ok (.classLiteral "La/C[];") := rfl

/-- **Class literals in both formats.** A text that has the literal of a type has the descriptor of
some class, and a class file has that of the type itself, which is read back. They agree exactly on
the names of classes. -/
theorem literal_agrees (ids : Naming) (name : String → ClassType) (T : TypeExpr) :
    FieldType.parse T.type.text = .ok T.type ∧
    ∃ d, value ids T.literal = .ok (.classLiteral d) ∧ FieldType.parse d = .ok T.asClass ∧
      (d = T.type.text ↔ T.IsName) ∧ (FieldType.parse d = .ok T.type ↔ T.IsName) ∧
      ∀ pool constants i o, ClassFile.ConstantPool.Denotes pool constants →
        ClassFile.text? constants i = some T.type.text →
        ∃ v, (ClassFile.readElementValue pool).Writes o
            (ClassFile.RawValue.classLiteral i).bytes v ∧
          v.qualify name = .classLiteral T.type.text ∧
          (value ids T.literal = .ok (v.qualify name) ↔ T.IsName) := by
  have hread : FieldType.parse T.asClass.text = .ok T.asClass :=
    FieldType.parse_eq_ok.mpr ⟨T.wellNamed_asClass, rfl⟩
  have hsame : T.asClass.text = T.type.text ↔ T.IsName :=
    (FieldType.text_inj T.wellNamed_asClass T.wellNamed_type).trans T.asClass_eq_type_iff
  refine ⟨FieldType.parse_eq_ok.mpr ⟨T.wellNamed_type, rfl⟩, T.asClass.text, T.value_literal ids,
    hread, hsame, ?_, fun pool constants i o hpool htext => ?_⟩
  · rw [hread, Except.ok.injEq, T.asClass_eq_type_iff]
  · have hqualified : (ElementValue.classLiteral T.type.text).qualify name =
        .classLiteral T.type.text := by rw [ElementValue.qualify]
    refine ⟨_, ClassFile.writes_classLiteral hpool htext o, hqualified, ?_⟩
    rw [hqualified, T.value_literal, Except.ok.injEq, ElementValue.classLiteral.injEq, hsame]

/-! ### Examples -/

/-- A name of a class. -/
def label : TypeExpr :=
  named ⟨"a.B".toList, by decide, DottedName.chars_of_all (by decide), by decide⟩

/-- The constants of a class file with its descriptor. -/
def labelConstants : List ClassFile.RawConstant :=
  [.utf8 [0x4C, 0x61, 0x2F, 0x42, 0x3B]]

/-- The pool that is read of them. -/
def labelPool : ClassFile.ConstantPool :=
  ⟨#[none, some (.utf8 "La/B;")]⟩

/-- The class `a.B` in both formats. -/
theorem literal_agrees_label :
    ClassFile.ConstantPool.Denotes labelPool labelConstants ∧
    ClassFile.text? labelConstants 1 = some label.type.text ∧ label.IsName ∧
    ∃ v, (ClassFile.readElementValue labelPool).Writes 0 [0x63, 0, 1] v ∧
      value .plain "a.B.class".toList = .ok (v.qualify Naming.plain.classType) := by
  have hslots : ClassFile.decodedSlots? labelConstants = some [some (.utf8 "La/B;")] := rfl
  have hpool : ClassFile.ConstantPool.Denotes labelPool labelConstants :=
    ClassFile.denotes_of_decodedSlots? hslots
  have htext : ClassFile.text? labelConstants 1 = some label.type.text := rfl
  have hname : label.IsName := ⟨_, rfl⟩
  obtain ⟨-, d, -, -, -, -, hboth⟩ := literal_agrees .plain Naming.plain.classType label
  obtain ⟨v, hv, -, hsame⟩ := hboth labelPool labelConstants 1 0 hpool htext
  exact ⟨hpool, htext, hname, v, hv, hsame.mpr hname⟩

/-- **A class literal can name another type**: that of a primitive one is the literal of a class. -/
theorem literal_differs : ¬ ∀ (ids : Naming) (T : TypeExpr),
    value ids T.literal = .ok (.classLiteral T.type.text) := by
  intro h
  have hint : "Lint;" = (primitive .int).type.text :=
    ElementValue.classLiteral.inj (Except.ok.inj
      (((primitive .int).value_literal .plain).symm.trans (h .plain (primitive .int))))
  exact absurd hint (by decide)

end TypeExpr

end TextClass

end Classpath
