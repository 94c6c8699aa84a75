import StubNames.Proofs.Casing.Image
import StubNames.Proofs.Config.Acceptance
import StubNames.Proofs.Convention
import StubNames.Proofs.Naming.Canonical
import StubNames.Proofs.Naming.Reach
/-!
# Reserved names and escaping

A name that is reserved gets the escape suffix once, and nobody looks whether the longer name is
reserved as well.  So a field ends up with a reserved name exactly if both its converted name and
the escaped form of it are reserved.  Types are escaped part by part, so theirs are reserved
whenever the parts happen to join to a reserved name.
-/

namespace StubNames

open Schema (Builder Declaration Entity Graph Handle Kind)

namespace Convention

variable {c : Convention}

/-- Whatever is declared, no entity of these kinds is given one of the names. -/
def Avoids (c : Convention) (kinds : Kind → Prop) (names : Ordered.Set String) : Prop :=
  ∀ (number : Nat) (ds : List Declaration) (h : Handle) (e : Entity) (n : Identifier),
    let r : Resolver := ⟨((Builder.start number).run ds).build, c⟩
    r.graph.get? h = some e → kinds e.kind → r.name h = .ok n → n.text ∉ names

/-! ## Fields -/

theorem avoids_fields_iff :
    c.Avoids Kind.IsField c.reservedFields ↔
      ∀ a ∈ c.reservedFields, IsCamel a.toList → a ++ c.escapeSuffix.text ∉ c.reservedFields := by
  constructor
  · intro havoids a ha hcamel hescaped
    obtain ⟨name, hne, rfl⟩ := exists_upperCamel_eq hcamel
    obtain ⟨ds, h, e, he, hkind, rfl⟩ := Builder.exists_field_of_name hne
    have hfield : e.kind.IsField := .inr ⟨none, hkind⟩
    have hname := Resolver.name_of_isField (r := ⟨_, c⟩) he hfield
    apply havoids 1 ds h e _ he hfield hname
    rw [Resolver.fieldName, safeFieldName_eq_escapeIn]
    exact escapeIn_mem_iff.2 ⟨ha, hescaped⟩
  · intro hreserved number ds h e n r he hkind hname hmem
    rw [Resolver.name_of_isField he hkind] at hname
    cases hname
    rw [Resolver.fieldName, safeFieldName_eq_escapeIn] at hmem
    obtain ⟨hown, hescaped⟩ := escapeIn_mem_iff.1 hmem
    exact hreserved _ hown (isCamel_upperCamel e.name) hescaped

/-! ## Types -/

def IsTypePart (c : Convention) (part : String) : Prop :=
  (IsCamel part.toList ∧ part ∉ c.reservedTypes) ∨
    ∃ a ∈ c.reservedTypes, IsCamel a.toList ∧ part = a ++ c.escapeSuffix.text

theorem isTypePart_typePart (name : String) : c.IsTypePart (c.typePart name).text := by
  have hcamel := isCamel_upperCamel name
  rw [typePart, safeTypeName_eq_escapeIn]
  by_cases hmem : (upperCamel name).text ∈ c.reservedTypes
  · rw [escapeIn_text_of_mem hmem]
    exact .inr ⟨_, hmem, hcamel, rfl⟩
  · rw [escapeIn_text_of_notMem hmem]
    exact .inl ⟨hcamel, hmem⟩

theorem exists_typePart_eq {part : String} (hpart : c.IsTypePart part) :
    ∃ name, name ≠ "" ∧ (c.typePart name).text = part := by
  rcases hpart with ⟨hcamel, hmem⟩ | ⟨a, hmem, hcamel, rfl⟩
  · obtain ⟨name, hne, rfl⟩ := exists_upperCamel_eq hcamel
    refine ⟨name, hne, ?_⟩
    rw [typePart, safeTypeName_eq_escapeIn, escapeIn_text_of_notMem hmem]
  · obtain ⟨name, hne, rfl⟩ := exists_upperCamel_eq hcamel
    refine ⟨name, hne, ?_⟩
    rw [typePart, safeTypeName_eq_escapeIn, escapeIn_text_of_mem hmem]

theorem exists_path_of_parts {parts : List String} (hparts : ∀ part ∈ parts, c.IsTypePart part) :
    ∃ path : List String, (∀ name ∈ path, name ≠ "") ∧
      path.map (fun name => (c.typePart name).text) = parts := by
  induction parts with
  | nil => exact ⟨[], by simp, rfl⟩
  | cons part parts ih =>
      rw [List.forall_mem_cons] at hparts
      obtain ⟨name, hne, hname⟩ := exists_typePart_eq hparts.1
      obtain ⟨path, hpath, hmap⟩ := ih hparts.2
      refine ⟨name :: path, List.forall_mem_cons.2 ⟨hne, hpath⟩, ?_⟩
      rw [List.map_cons, hname, hmap]

theorem avoids_types_iff :
    c.Avoids Kind.IsType c.reservedTypes ↔
      ∀ parts : List String, parts ≠ [] → (∀ part ∈ parts, c.IsTypePart part) →
        "_".intercalate parts ∉ c.reservedTypes := by
  constructor
  · intro havoids parts hne hparts hmem
    obtain ⟨path, hpath, rfl⟩ := exists_path_of_parts hparts
    have hpathne : path ≠ [] := by simpa using hne
    obtain ⟨ds, h, e, he, hkind, rfl⟩ := Builder.exists_message_of_path hpathne hpath
    have hg := (Builder.valid_run_start 1 ds).wellFormed
    have hname := Resolver.name_of_type_eq_typeText (r := ⟨_, c⟩) hg he (.inl hkind)
    exact havoids 1 ds h e _ he (.inl hkind) hname hmem
  · intro hreserved number ds h e n r he hkind hname
    have hg := (Builder.valid_run_start number ds).wellFormed
    rw [Resolver.name_of_type_eq_typeText hg he hkind] at hname
    cases hname
    apply hreserved
    · simpa using Graph.typePath_ne_nil
    · intro part hpart
      obtain ⟨name, -, rfl⟩ := List.mem_map.1 hpart
      exact isTypePart_typePart name

/-! ## Conventions that are safe -/

/-- An underscore that no reserved name has keeps escaped and nested names apart from all of
them. -/
theorem avoids_types_of_underscore (hsuffix : '_' ∈ c.escapeSuffix.text.toList)
    (hreserved : ∀ a ∈ c.reservedTypes, '_' ∉ a.toList) :
    c.Avoids Kind.IsType c.reservedTypes := by
  rw [avoids_types_iff]
  intro parts hne hparts hmem
  -- one part is escaped if it is reserved, and between several parts there is an underscore
  match parts with
  | [part] =>
      have hpart : "_".intercalate [part] = part := by simp
      rw [hpart] at hmem
      rcases hparts part List.mem_cons_self with ⟨-, hfree⟩ | ⟨a, -, -, rfl⟩
      · exact hfree hmem
      · apply hreserved _ hmem
        rw [String.toList_append]
        exact List.mem_append_right _ hsuffix
  | part :: next :: parts =>
      apply hreserved _ hmem
      simp

/-- Nothing that is declared is given a name that the built-in convention reserves. -/
theorem go_avoids :
    go.Avoids Kind.IsField go.reservedFields ∧ go.Avoids Kind.IsType go.reservedTypes := by
  constructor
  · have hescaped : ∀ a ∈ go.reservedFields.toList,
        a ++ go.escapeSuffix.text ∉ go.reservedFields := by
      decide
    exact avoids_fields_iff.2 fun a ha _ => hescaped a ha
  · apply avoids_types_of_underscore
    · decide
    · intro a ha
      exact absurd ha Ordered.Set.notMem_empty

end Convention

/-! ## Accepted configurations -/

/-- Under an accepted configuration a field or oneof group keeps its converted name unless that is
reserved.  The name that it has then is reserved as well exactly if the escaped form is, and so the
configuration is safe exactly if the escaped form of no reserved name is reserved. -/
theorem field_name_reserved_iff {read : Config.Reader} {filename text : String} {config : Config}
    (hload : Config.loadWith read filename text = .ok config) :
    let c := config.convention
    (∀ (number : Nat) (ds : List Declaration) (h : Handle) (e : Entity),
      let r : Resolver := ⟨((Builder.start number).run ds).build, c⟩
      let own := (upperCamel e.name).text
      r.graph.get? h = some e → e.kind.IsField →
        ∃ n, r.name h = .ok n ∧
          (own ∉ c.reservedFields → n.text = own) ∧
          (own ∈ c.reservedFields → n.text = own ++ c.escapeSuffix.text ∧ n.text ≠ own) ∧
          (n.text ∈ c.reservedFields ↔
            own ∈ c.reservedFields ∧ own ++ c.escapeSuffix.text ∈ c.reservedFields)) ∧
    (c.Avoids Kind.IsField c.reservedFields ↔
      ∀ a ∈ c.reservedFields, IsCamel a.toList →
        a ++ c.escapeSuffix.text ∉ c.reservedFields) := by
  intro c
  have hescape : c.escapeSuffix.text ≠ "" := (Config.loadWith_eq_ok_iff.1 hload).2.escape_ne_empty
  refine ⟨?_, Convention.avoids_fields_iff⟩
  intro number ds h e r own he hkind
  refine ⟨_, Resolver.name_of_isField he hkind, ?_⟩
  rw [Resolver.fieldName, Convention.safeFieldName_eq_escapeIn]
  refine ⟨Convention.escapeIn_text_of_notMem, fun hmem => ?_, Convention.escapeIn_mem_iff⟩
  rw [Convention.escapeIn_text_of_mem hmem]
  exact ⟨rfl, Convention.append_escapeSuffix_ne hescape own⟩

/-- Reserves what a built-in reserved name is escaped to. -/
def escapedFieldConfig : Config where
  reserved := { fields := ["String_"] }

def stringDeclarations : List Declaration :=
  [.package "p", .file ⟨1, 0⟩ "f", .member .message ⟨1, 1⟩ "m", .member .field ⟨1, 2⟩ "string"]

theorem field_name_reserved_string :
    Config.load "protoname.toml" "[reserved]\nfields = [\"String_\"]\n" = .ok escapedFieldConfig ∧
      ¬escapedFieldConfig.convention.Avoids Kind.IsField
        escapedFieldConfig.convention.reservedFields := by
  have hload : Config.load "protoname.toml" "[reserved]\nfields = [\"String_\"]\n" =
      .ok escapedFieldConfig := by
    decide +kernel
  refine ⟨hload, fun havoids => ?_⟩
  have hcamel : IsCamel "String".toList := isCamel_iff.2 ⟨"string", by decide, by decide +kernel⟩
  have hreserved := (field_name_reserved_iff hload).2.1 havoids "String" (by decide) hcamel
  exact hreserved (by decide)

/-- The escaped name of a field can be reserved. -/
theorem escaped_field_is_reserved :
    Config.load "protoname.toml" "[reserved]\nfields = [\"String_\"]\n" = .ok escapedFieldConfig ∧
      let c := escapedFieldConfig.convention
      let r : Resolver := ⟨((Builder.start 1).run stringDeclarations).build, c⟩
      (∃ e, r.graph.get? ⟨1, 3⟩ = some e ∧ e.kind = .field none) ∧
        r.name ⟨1, 3⟩ = .ok ⟨"String_"⟩ ∧ "String_" ∈ c.reservedFields := by
  have he : ((Builder.start 1).run stringDeclarations).build.get? ⟨1, 3⟩ =
      some ⟨.field none, "string", ".p.m.string", some ⟨1, 2⟩, some ⟨1, 0⟩, []⟩ := by
    decide +kernel
  exact ⟨by decide +kernel, ⟨_, he, rfl⟩, by decide +kernel, by decide⟩

/-- Under an accepted configuration every part of a type's name is escaped on its own.  The whole
name is never looked at, so the configuration is safe exactly if no parts join to a reserved
name. -/
theorem type_name_reserved_iff {read : Config.Reader} {filename text : String} {config : Config}
    (hload : Config.loadWith read filename text = .ok config) :
    let c := config.convention
    (∀ (number : Nat) (ds : List Declaration) (h : Handle) (e : Entity),
      let r : Resolver := ⟨((Builder.start number).run ds).build, c⟩
      let path := r.graph.typePath h e
      r.graph.get? h = some e → e.kind.IsType →
        r.name h = .ok ⟨"_".intercalate (path.map fun name => (c.typePart name).text)⟩ ∧
          ∀ name ∈ path,
            let own := (upperCamel name).text
            (own ∉ c.reservedTypes → (c.typePart name).text = own) ∧
            (own ∈ c.reservedTypes →
              (c.typePart name).text = own ++ c.escapeSuffix.text ∧ (c.typePart name).text ≠ own) ∧
            ((c.typePart name).text ∈ c.reservedTypes ↔
              own ∈ c.reservedTypes ∧ own ++ c.escapeSuffix.text ∈ c.reservedTypes)) ∧
    (c.Avoids Kind.IsType c.reservedTypes ↔
      ∀ parts : List String, parts ≠ [] → (∀ part ∈ parts, c.IsTypePart part) →
        "_".intercalate parts ∉ c.reservedTypes) := by
  intro c
  have hescape : c.escapeSuffix.text ≠ "" := (Config.loadWith_eq_ok_iff.1 hload).2.escape_ne_empty
  refine ⟨?_, Convention.avoids_types_iff⟩
  intro number ds h e r path he hkind
  have hg := (Builder.valid_run_start number ds).wellFormed
  refine ⟨Resolver.name_of_type_eq_typeText hg he hkind, ?_⟩
  intro name _ own
  rw [Convention.typePart, Convention.safeTypeName_eq_escapeIn]
  refine ⟨Convention.escapeIn_text_of_notMem, fun hmem => ?_, Convention.escapeIn_mem_iff⟩
  rw [Convention.escapeIn_text_of_mem hmem]
  exact ⟨rfl, Convention.append_escapeSuffix_ne hescape own⟩

def nestedTypeConfig : Config where
  reserved := { types := ["A_B"] }

def nestedTypeDeclarations : List Declaration :=
  [.package "p", .file ⟨1, 0⟩ "f", .member .message ⟨1, 1⟩ "a", .member .message ⟨1, 2⟩ "b"]

theorem type_name_reserved_nested :
    Config.load "protoname.toml" "[reserved]\ntypes = [\"A_B\"]\n" = .ok nestedTypeConfig ∧
      ¬nestedTypeConfig.convention.Avoids Kind.IsType
        nestedTypeConfig.convention.reservedTypes := by
  have hload : Config.load "protoname.toml" "[reserved]\ntypes = [\"A_B\"]\n" =
      .ok nestedTypeConfig := by
    decide +kernel
  refine ⟨hload, fun havoids => ?_⟩
  have hparts : ∀ part ∈ ["A", "B"], nestedTypeConfig.convention.IsTypePart part := by
    intro part hpart
    rcases List.mem_cons.1 hpart with rfl | hpart
    · exact .inl ⟨isCamel_iff.2 ⟨"a", by decide, by decide +kernel⟩, by decide⟩
    · rw [List.mem_singleton.1 hpart]
      exact .inl ⟨isCamel_iff.2 ⟨"b", by decide, by decide +kernel⟩, by decide⟩
  have hreserved := (type_name_reserved_iff hload).2.1 havoids ["A", "B"] (by simp) hparts
  exact hreserved (by decide)

/-- The name of a nested message can be reserved. -/
theorem nested_type_is_reserved :
    Config.load "protoname.toml" "[reserved]\ntypes = [\"A_B\"]\n" = .ok nestedTypeConfig ∧
      let c := nestedTypeConfig.convention
      let r : Resolver := ⟨((Builder.start 1).run nestedTypeDeclarations).build, c⟩
      (∃ e, r.graph.get? ⟨1, 3⟩ = some e ∧ e.kind = .message) ∧
        r.name ⟨1, 3⟩ = .ok ⟨"A_B"⟩ ∧ "A_B" ∈ c.reservedTypes := by
  have he : ((Builder.start 1).run nestedTypeDeclarations).build.get? ⟨1, 3⟩ =
      some ⟨.message, "b", ".p.a.b", some ⟨1, 2⟩, some ⟨1, 0⟩, []⟩ := by
    decide +kernel
  exact ⟨by decide +kernel, ⟨_, he, rfl⟩, by decide +kernel, by decide⟩

end StubNames
