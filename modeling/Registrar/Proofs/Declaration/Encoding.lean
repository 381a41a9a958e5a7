import Mathlib
import Registrar.Declaration.Encoding
import Registrar.Proofs.Json.Part

/-!
Contract: declarations that were written as JSON are read.

Owns: which declarations can be held in memory, that the fields of a declaration have different
keys whatever its kind, and that such a declaration is read back from what is written for it.

Does not own: JSON text.
-/

set_option autoImplicit false

namespace Registrar

open Decode

/-! ## Parts -/

theorem Access.ofJson?_name (access : Access) :
    ofJson? (.string access.name) = some access := by
  cases access <;> decide

theorem Access.ofBaseJson?_name (access : Access) :
    ofBaseJson? (.string access.name) = some access := by
  cases access <;> decide

theorem InstantiationOrigin.looselyNamed?_name (origin : InstantiationOrigin) :
    looselyNamed? all name (.string origin.name) = some origin := by
  cases origin <;> decide

/-- Lines and columns have 32 bits. -/
structure Location.IsRepresentable (location : Location) : Prop where
  line : location.line < 1 <<< 32
  column : location.column < 1 <<< 32

instance (location : Location) : Decidable location.IsRepresentable :=
  decidable_of_iff (location.line < 1 <<< 32 ∧ location.column < 1 <<< 32)
    ⟨fun fits => ⟨fits.1, fits.2⟩, fun fits => ⟨fits.line, fits.column⟩⟩

theorem Location.ofJson?_toJson {location : Location} (representable : location.IsRepresentable) :
    ofJson? location.toJson = some location := by
  simp [ofJson?, toJson, part?, noneRepeated, occurrences, defaulted?, Json.field?,
    word?_nat representable.line, word?_nat representable.column]

theorem BaseClause.ofJson?_toJson (base : BaseClause) : ofJson? base.toJson = some base := by
  simp [ofJson?, toJson, part?, noneRepeated, occurrences, required?, defaulted?, Json.field?,
    Access.ofBaseJson?_name]

theorem TemplateArgument.ofJson?_toJson (argument : TemplateArgument) :
    ofJson? argument.toJson = some argument := by
  cases argument <;> rfl

theorem TemplateUse.ofJson?_toJson (use : TemplateUse) : ofJson? use.toJson = some use := by
  simp [ofJson?, toJson, part?, noneRepeated, occurrences, required?, defaulted?, Json.field?,
    list?_map fun argument _ => TemplateArgument.ofJson?_toJson argument,
    InstantiationOrigin.looselyNamed?_name]

theorem optional?_text (text : Option String) :
    optional? text? (Json.ofOption .string text) = some text :=
  optional?_ofOption (fun _ _ => rfl) nofun

theorem Parameter.ofJson?_toJson (parameter : Parameter) :
    ofJson? parameter.toJson = some parameter := by
  simp [ofJson?, toJson, part?, noneRepeated, occurrences, required?, defaulted?, Json.field?,
    optional?_text]

theorem Signature.ofJson?_toJson (signature : Signature) :
    ofJson? signature.toJson = some signature := by
  simp [ofJson?, toJson, part?, noneRepeated, occurrences, defaulted?, Json.field?,
    list?_map fun parameter _ => Parameter.ofJson?_toJson parameter]

/-! ## Kinds -/

namespace DeclarationKind

theorem tag?_name (target : Target) : tag? (.string target.name) = some target := by
  cases target <;> decide

theorem optional?_template (use : Option TemplateUse) :
    optional? TemplateUse.ofJson? (Json.ofOption TemplateUse.toJson use) = some use :=
  optional?_ofOption (fun inner _ => TemplateUse.ofJson?_toJson inner) nofun

theorem list?_bases (bases : List BaseClause) :
    list? BaseClause.ofJson? (.array (bases.map BaseClause.toJson)) = some bases :=
  list?_map fun base _ => BaseClause.ofJson?_toJson base

/-- A kind is read from any fields that have those that are written for it. -/
theorem ofFields?_of_field? {fields : List (String × Json)} {kind : DeclarationKind}
    (holds : ∀ entry ∈ kind.toFields, Json.field? fields entry.1 = some entry.2) :
    ofFields? fields kind.target = some kind := by
  cases kind <;>
    simp_all [target, toFields, ofFields?, required?, defaulted?, optional?_template, list?_bases,
      optional?_text, Signature.ofJson?_toJson]

theorem map_fst_toFields (kind : DeclarationKind) :
    kind.toFields.map Prod.fst = keys kind.target := by
  cases kind <;> rfl

theorem ofJsonFields?_of_mem {fields : List (String × Json)} {kind : DeclarationKind}
    (distinct : (fields.map Prod.fst).Nodup)
    (written : ∀ entry ∈ kind.toJsonFields, entry ∈ fields) :
    ofJsonFields? fields = some kind := by
  have isKind : Json.field? fields "kind" = some (.string kind.name) :=
    field?_of_mem distinct (written _ List.mem_cons_self)
  have areFields : ∀ entry ∈ kind.toFields, Json.field? fields entry.1 = some entry.2 := by
    intro entry listed
    exact field?_of_mem distinct (written entry (List.mem_cons_of_mem _ listed))
  rw [ofJsonFields?, if_pos (noneRepeated_of_nodup distinct _), required?_of_field? isKind]
  rw [name, tag?_name, Option.bind_eq_bind, Option.bind_some,
    if_pos (noneRepeated_of_nodup distinct _)]
  exact ofFields?_of_field? areFields

end DeclarationKind

/-! ## Declarations -/

namespace Marking.Payload

/-- The entries of a map are well-formed, and in ascending order of the names. -/
def isWellFormed : Payload → Bool
  | text _ => true
  | map entries => Json.fieldsWellFormed entries

theorem ofJson?_toJson {payload : Payload} (wellFormed : payload.isWellFormed = true) :
    ofJson? payload.toJson = some payload := by
  cases payload with
  | text source => rfl
  | map entries => rw [toJson, ofJson?, Json.sortedFields_of_fieldsWellFormed wellFormed]

end Marking.Payload

namespace Declaration

/-- Numbers have 32 bits, and the payloads are well-formed. -/
structure IsRepresentable (declaration : Declaration) : Prop where
  id : declaration.id < 1 <<< 32
  order : declaration.order < 1 <<< 32
  parent : ∀ parent ∈ declaration.parent, parent < 1 <<< 32
  location : declaration.location.IsRepresentable
  payloads : ∀ payload ∈ declaration.payloads, payload.isWellFormed = true

instance (declaration : Declaration) : Decidable declaration.IsRepresentable :=
  decidable_of_iff
    (declaration.id < 1 <<< 32 ∧ declaration.order < 1 <<< 32 ∧
      (∀ parent ∈ declaration.parent, parent < 1 <<< 32) ∧ declaration.location.IsRepresentable ∧
      ∀ payload ∈ declaration.payloads, payload.isWellFormed = true)
    ⟨fun fits => ⟨fits.1, fits.2.1, fits.2.2.1, fits.2.2.2.1, fits.2.2.2.2⟩,
      fun fits => ⟨fits.id, fits.order, fits.parent, fits.location, fits.payloads⟩⟩

/-- The fields that are written for every declaration behind those of its kind. -/
def ownFields (declaration : Declaration) : List (String × Json) :=
  [("name", .string declaration.name),
    ("qualified_name", .string declaration.qualifiedName),
    ("parent", .ofOption .nat declaration.parent),
    ("order", .nat declaration.order),
    ("location", declaration.location.toJson),
    ("annotations", .array (declaration.payloads.map Marking.Payload.toJson)),
    ("doc", .ofOption .string declaration.doc),
    ("access", .string declaration.access.name)]

/-- The fields that are written for a declaration. -/
def toFields (declaration : Declaration) : List (String × Json) :=
  ("id", .nat declaration.id) :: declaration.kind.toJsonFields ++ declaration.ownFields

theorem toJson_eq (declaration : Declaration) : declaration.toJson = .object declaration.toFields :=
  rfl

/-- No field of a kind has the key of another, or of a field that all declarations have. -/
theorem toFields_distinct (declaration : Declaration) :
    (declaration.toFields.map Prod.fst).Nodup := by
  have allDistinct (target : Target) :
      ("id" :: "kind" :: DeclarationKind.keys target ++
        ["name", "qualified_name", "parent", "order", "location", "annotations", "doc",
          "access"]).Nodup := by
    cases target <;> decide
  have areKeys := allDistinct declaration.kind.target
  rw [← DeclarationKind.map_fst_toFields] at areKeys
  rw [toFields, DeclarationKind.toJsonFields, List.map_append]
  exact areKeys

theorem ofJson?_toJson {declaration : Declaration} (representable : declaration.IsRepresentable)
    (readable : ∀ entry ∈ declaration.toFields, entry.2.readableTo fieldDepth = true) :
    ofJson? declaration.toJson = some declaration := by
  have distinct := declaration.toFields_distinct
  have allReadable : declaration.toFields.all fieldIsReadable = true := by
    rw [List.all_eq_true]
    intro entry listed
    rw [fieldIsReadable, readable entry listed, Bool.or_true]
  have isField : ∀ entry ∈ declaration.toFields,
      Json.field? declaration.toFields entry.1 = some entry.2 :=
    fun _ listed => field?_of_mem distinct listed
  have isId : Json.field? declaration.toFields "id" = some (.nat declaration.id) :=
    isField _ List.mem_cons_self
  have isKind : DeclarationKind.ofJsonFields? declaration.toFields = some declaration.kind :=
    DeclarationKind.ofJsonFields?_of_mem distinct fun entry listed =>
      List.mem_cons_of_mem _ (List.mem_append_left _ listed)
  have areOwn : ∀ entry ∈ declaration.ownFields,
      Json.field? declaration.toFields entry.1 = some entry.2 :=
    fun entry listed => isField entry (List.mem_append_right _ listed)
  have isParent : optional? word? (Json.ofOption .nat declaration.parent) =
      some declaration.parent :=
    optional?_ofOption (fun parent isSome => word?_nat (representable.parent parent isSome)) nofun
  have arePayloads : list? Marking.Payload.ofJson?
      (.array (declaration.payloads.map Marking.Payload.toJson)) = some declaration.payloads :=
    list?_map fun payload listed =>
      Marking.Payload.ofJson?_toJson (representable.payloads payload listed)
  simp only [ownFields, List.forall_mem_cons] at areOwn
  rw [toJson_eq, ofJson?, noneRepeated_of_nodup distinct, allReadable]
  simp [required?, defaulted?, isId, isKind, areOwn, isParent, arePayloads, optional?_text,
    word?_nat representable.id, word?_nat representable.order,
    Location.ofJson?_toJson representable.location, Access.ofJson?_name]

end Declaration

end Registrar
