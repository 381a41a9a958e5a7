import Mathlib
import Registrar.CommandLine.Execution
import Registrar.Proofs.Declaration.Encoding
import Registrar.Proofs.Json.Lossless
import Registrar.Proofs.MessagePack

/-!
Contract: records that were written are read.

Owns: which records can be held in memory, that the fields of a record have different keys and
none has the key of its kind, that records are read back from what is written for them, and that
any written form that loses nothing tells lists of records apart.

Does not own: which records there are, and how values are written.
-/

set_option autoImplicit false

namespace Registrar

open Decode

/-! ## Representable records -/

/-- The numbers of arguments have 32 bits. -/
structure KeepAliveRecord.IsRepresentable (pair : KeepAliveRecord) : Prop where
  nurse : pair.nurse < 1 <<< 32
  patient : pair.patient < 1 <<< 32

instance (pair : KeepAliveRecord) : Decidable pair.IsRepresentable :=
  decidable_of_iff (pair.nurse < 1 <<< 32 ∧ pair.patient < 1 <<< 32)
    ⟨fun fits => ⟨fits.1, fits.2⟩, fun fits => ⟨fits.nurse, fits.patient⟩⟩

/-- The pairs of arguments in a record. -/
def Record.keepAlivePairs : Record → List KeepAliveRecord
  | constructors _ overloads => overloads.flatMap ConstructorRecord.keepAlive
  | method called => called.keepAlive
  | function called => called.keepAlive
  | operator _ _ called => called.keepAlive
  | _ => []

/-- The record can be held in memory. -/
def Record.IsRepresentable (record : Record) : Prop :=
  ∀ pair ∈ record.keepAlivePairs, pair.IsRepresentable

instance (record : Record) : Decidable record.IsRepresentable :=
  inferInstanceAs (Decidable (∀ pair ∈ record.keepAlivePairs, pair.IsRepresentable))

/-! ## Parts -/

theorem optional?_textOrNull (text : Option String) :
    optional? text? (.textOrNull text) = some text :=
  optional?_text text

theorem list?_strings (texts : List String) :
    list? text? (.array (texts.map .string)) = some texts :=
  list?_map fun text _ => text?_string text

theorem ReturnPolicy.looselyNamed?_name (policy : ReturnPolicy) :
    looselyNamed? all name (.string policy.name) = some policy := by
  cases policy <;> decide

theorem ParameterRecord.ofJson?_toJson (parameter : ParameterRecord) :
    ofJson? parameter.toJson = some parameter := by
  simp [ofJson?, toJson, wholePart?, part?, noneRepeated, occurrences, required?, defaulted?, Json.field?,
    optional?_textOrNull]

theorem ReturnRecord.ofJson?_toJson (returned : ReturnRecord) :
    ofJson? returned.toJson = some returned := by
  simp [ofJson?, toJson, wholePart?, part?, noneRepeated, occurrences, required?, Json.field?,
    ReturnPolicy.looselyNamed?_name]

theorem KeepAliveRecord.ofJson?_toJson {pair : KeepAliveRecord}
    (representable : pair.IsRepresentable) : ofJson? pair.toJson = some pair := by
  simp [ofJson?, toJson, wholePart?, part?, noneRepeated, occurrences, required?, Json.field?,
    word?_nat representable.nurse, word?_nat representable.patient]

theorem list?_parameters (parameters : List ParameterRecord) :
    list? ParameterRecord.ofJson? (.array (parameters.map ParameterRecord.toJson)) =
      some parameters :=
  list?_map fun parameter _ => ParameterRecord.ofJson?_toJson parameter

theorem list?_keepAlive {pairs : List KeepAliveRecord}
    (representable : ∀ pair ∈ pairs, pair.IsRepresentable) :
    list? KeepAliveRecord.ofJson? (.array (pairs.map KeepAliveRecord.toJson)) = some pairs :=
  list?_map fun pair listed => KeepAliveRecord.ofJson?_toJson (representable pair listed)

theorem ConstructorRecord.ofJson?_toJson {overload : ConstructorRecord}
    (representable : ∀ pair ∈ overload.keepAlive, pair.IsRepresentable) :
    ofJson? overload.toJson = some overload := by
  simp [ofJson?, toJson, wholePart?, part?, noneRepeated, occurrences, required?, defaulted?, Json.field?,
    list?_parameters, list?_keepAlive representable, optional?_textOrNull]

/-- What sort of context it is stands in a field of its own, and only classes have others. -/
theorem ContextSort.ofJson?_toJson (sort : ContextSort) : ofJson? sort.toJson = some sort := by
  cases sort with
  | root => rfl
  | module => rfl
  | «class» bases holderType dynamicAttributes =>
      simp [ofJson?, toJson, tag?, tags, ofTag?, classOfJson?, wholePart?, part?, noneRepeated,
        occurrences, required?, defaulted?, Json.field?, list?_strings, optional?_textOrNull]

/-! ## Parts whose fields stand among others -/

section Fields

variable {fields : List (String × Json)}

/-- What is written is found under its key, as no other field has the key. -/
theorem field?_of_subset (distinct : (fields.map Prod.fst).Nodup)
    {written : List (String × Json)} (isWritten : written ⊆ fields) :
    ∀ entry ∈ written, Json.field? fields entry.1 = some entry.2 :=
  fun _ listed => field?_of_mem distinct (isWritten listed)

variable (distinct : (fields.map Prod.fst).Nodup)

include distinct

theorem FunctionRecord.ofJson?_of_subset {called : FunctionRecord}
    (representable : ∀ pair ∈ called.keepAlive, pair.IsRepresentable)
    (isWritten : called.toFields ⊆ fields) : ofJson? (.object fields) = some called := by
  have isField := field?_of_subset distinct isWritten
  simp only [toFields, List.forall_mem_cons] at isField
  rw [ofJson?, wholePart?_object distinct]
  simp [required?, defaulted?, isField, list?_parameters, list?_keepAlive representable,
    ReturnRecord.ofJson?_toJson, optional?_textOrNull]

theorem FieldRecord.ofJson?_of_subset {stored : FieldRecord}
    (isWritten : stored.toFields ⊆ fields) : ofJson? (.object fields) = some stored := by
  have isField := field?_of_subset distinct isWritten
  simp only [toFields, List.forall_mem_cons] at isField
  rw [ofJson?, wholePart?_object distinct]
  simp [required?, defaulted?, isField, optional?_textOrNull]

theorem ContextRecord.ofJson?_of_subset {opened : ContextRecord}
    (isWritten : opened.toFields ⊆ fields) : ofJson? (.object fields) = some opened := by
  have isField := field?_of_subset distinct isWritten
  simp only [toFields, List.forall_mem_cons] at isField
  rw [ofJson?, wholePart?_object distinct]
  simp [required?, defaulted?, isField, ContextSort.ofJson?_toJson, optional?_textOrNull]

theorem EnumRecord.ofJson?_of_subset {opened : EnumRecord}
    (isWritten : opened.toFields ⊆ fields) : ofJson? (.object fields) = some opened := by
  have isField := field?_of_subset distinct isWritten
  simp only [toFields, List.forall_mem_cons] at isField
  rw [ofJson?, wholePart?_object distinct]
  simp [required?, defaulted?, isField, optional?_textOrNull]

theorem PropertyRecord.ofJson?_of_subset {property : PropertyRecord}
    (isWritten : property.toFields ⊆ fields) : ofJson? (.object fields) = some property := by
  have isField := field?_of_subset distinct isWritten
  simp only [toFields, List.forall_mem_cons] at isField
  rw [ofJson?, wholePart?_object distinct]
  simp [required?, defaulted?, isField, optional?_textOrNull]

theorem EnumeratorRecord.ofJson?_of_subset {named : EnumeratorRecord}
    (isWritten : named.toFields ⊆ fields) : ofJson? (.object fields) = some named := by
  have isField := field?_of_subset distinct isWritten
  simp only [toFields, List.forall_mem_cons] at isField
  rw [ofJson?, wholePart?_object distinct]
  simp [required?, defaulted?, isField, optional?_textOrNull]

theorem AliasRecord.ofJson?_of_subset {named : AliasRecord}
    (isWritten : named.toFields ⊆ fields) : ofJson? (.object fields) = some named := by
  have isField := field?_of_subset distinct isWritten
  simp only [toFields, List.forall_mem_cons] at isField
  rw [ofJson?, wholePart?_object distinct]
  simp [required?, defaulted?, isField, optional?_textOrNull]

end Fields

namespace Record

/-! ## Records -/

/-- The keys of the fields of a record differ from each other and from the key of its kind. -/
theorem toFields_distinct (record : Record) :
    (("kind" :: record.toFields.map Prod.fst)).Nodup := by
  cases record <;>
    simp [toFields, ContextRecord.toFields, EnumRecord.toFields, FunctionRecord.toFields,
      FieldRecord.toFields, PropertyRecord.toFields, EnumeratorRecord.toFields,
      AliasRecord.toFields]

/-- What is read depends on the kind alone, though kinds share their fields. -/
theorem ofKind?_of_subset {record : Record} (representable : record.IsRepresentable)
    {fields : List (String × Json)} (distinct : (fields.map Prod.fst).Nodup)
    (isWritten : record.toFields ⊆ fields) :
    ofKind? record.kind (.object fields) = some record := by
  have isField := field?_of_subset distinct isWritten
  cases record with
  | contextOpen opened =>
      rw [kind, ofKind?, ContextRecord.ofJson?_of_subset distinct isWritten]
      rfl
  | enum opened =>
      rw [kind, ofKind?, EnumRecord.ofJson?_of_subset distinct isWritten]
      rfl
  | contextClose identifier exportValues =>
      simp only [toFields, List.forall_mem_cons] at isField
      rw [kind, ofKind?, contextCloseOfJson?, wholePart?_object distinct]
      simp [required?, isField]
  | constructors scope overloads =>
      have areOverloads : list? ConstructorRecord.ofJson?
          (.array (overloads.map ConstructorRecord.toJson)) = some overloads :=
        list?_map fun overload listed => ConstructorRecord.ofJson?_toJson fun pair kept =>
          representable pair (List.mem_flatMap_of_mem listed kept)
      simp only [toFields, List.forall_mem_cons] at isField
      rw [kind, ofKind?, constructorsOfJson?, wholePart?_object distinct]
      simp [required?, isField, areOverloads]
  | method called =>
      rw [kind, ofKind?, FunctionRecord.ofJson?_of_subset distinct representable isWritten]
      rfl
  | function called =>
      rw [kind, ofKind?, FunctionRecord.ofJson?_of_subset distinct representable isWritten]
      rfl
  | operator slot reflected called =>
      have isCalled : FunctionRecord.ofJson? (.object called.toFields) = some called :=
        FunctionRecord.ofJson?_of_subset (function called).toFields_distinct.of_cons representable
          (List.Subset.refl _)
      simp only [toFields, List.forall_mem_cons] at isField
      rw [kind, ofKind?, operatorOfJson?, wholePart?_object distinct]
      simp [required?, isField, isCalled]
  | field stored =>
      rw [kind, ofKind?, FieldRecord.ofJson?_of_subset distinct isWritten]
      rfl
  | «variable» stored =>
      rw [kind, ofKind?, FieldRecord.ofJson?_of_subset distinct isWritten]
      rfl
  | property accessed =>
      rw [kind, ofKind?, PropertyRecord.ofJson?_of_subset distinct isWritten]
      rfl
  | enumerator named =>
      rw [kind, ofKind?, EnumeratorRecord.ofJson?_of_subset distinct isWritten]
      rfl
  | typeAlias named =>
      rw [kind, ofKind?, AliasRecord.ofJson?_of_subset distinct isWritten]
      rfl
  | manualBlock scope body =>
      simp only [toFields, List.forall_mem_cons] at isField
      rw [kind, ofKind?, manualBlockOfJson?, wholePart?_object distinct]
      simp [required?, isField]

theorem ofJson?_toJson {record : Record} (representable : record.IsRepresentable) :
    ofJson? record.toJson = some record := by
  have distinct : ((("kind", Json.string record.kind) :: record.toFields).map Prod.fst).Nodup :=
    record.toFields_distinct
  have isKind := field?_of_mem distinct List.mem_cons_self
  rw [toJson, ofJson?, if_pos (noneRepeated_of_nodup distinct _), required?_of_field? isKind,
    text?_string]
  exact ofKind?_of_subset representable distinct (List.subset_cons_self _ _)

theorem listOfJson?_listToJson {records : List Record}
    (representable : ∀ record ∈ records, record.IsRepresentable) :
    listOfJson? (listToJson records) = some records :=
  list?_map fun record listed => ofJson?_toJson (representable record listed)

end Record

/-! ## Plain values -/

section Plain

variable (depth : Nat)

@[simp]
theorem ParameterRecord.isPlain (parameter : ParameterRecord) :
    parameter.toJson.IsPlain (depth + 1) :=
  .object (by simp)

@[simp]
theorem ReturnRecord.isPlain (returned : ReturnRecord) : returned.toJson.IsPlain (depth + 1) :=
  .object (by simp)

theorem KeepAliveRecord.isPlain {pair : KeepAliveRecord} (representable : pair.IsRepresentable) :
    pair.toJson.IsPlain (depth + 1) := by
  have widens : 1 <<< 32 < 1 <<< 64 := by decide
  have nurse := Json.IsPlain.nat depth (representable.nurse.trans widens)
  have patient := Json.IsPlain.nat depth (representable.patient.trans widens)
  exact .object (by simp [nurse, patient])

@[simp]
theorem isPlain_parameters (parameters : List ParameterRecord) :
    Json.IsPlain (depth + 2) (.array (parameters.map ParameterRecord.toJson)) :=
  .array_map fun parameter _ => parameter.isPlain depth

theorem isPlain_keepAlive {pairs : List KeepAliveRecord}
    (representable : ∀ pair ∈ pairs, pair.IsRepresentable) :
    Json.IsPlain (depth + 2) (.array (pairs.map KeepAliveRecord.toJson)) :=
  .array_map fun pair listed => KeepAliveRecord.isPlain depth (representable pair listed)

theorem FunctionRecord.isPlain {called : FunctionRecord}
    (representable : ∀ pair ∈ called.keepAlive, pair.IsRepresentable) :
    ∀ entry ∈ called.toFields, entry.2.IsPlain (depth + 2) := by
  simp [toFields, isPlain_keepAlive depth representable]

theorem ConstructorRecord.isPlain {overload : ConstructorRecord}
    (representable : ∀ pair ∈ overload.keepAlive, pair.IsRepresentable) :
    overload.toJson.IsPlain (depth + 3) :=
  .object (by simp [isPlain_keepAlive depth representable])

@[simp]
theorem ContextSort.isPlain (sort : ContextSort) : sort.toJson.IsPlain (depth + 2) := by
  cases sort with
  | root => exact .object (by simp)
  | module => exact .object (by simp)
  | «class» bases holderType dynamicAttributes =>
      have areBases : Json.IsPlain (depth + 1) (.array (bases.map .string)) :=
        .array_map fun base _ => .string depth base
      exact .object (by simp [areBases])

end Plain

namespace Record

theorem isPlain_toFields (depth : Nat) {record : Record} (representable : record.IsRepresentable) :
    ∀ entry ∈ record.toFields, entry.2.IsPlain (depth + 4) := by
  cases record with
  | constructors scope overloads =>
      have areOverloads : Json.IsPlain (depth + 4)
          (.array (overloads.map ConstructorRecord.toJson)) :=
        .array_map fun overload listed => ConstructorRecord.isPlain depth fun pair kept =>
          representable pair (List.mem_flatMap_of_mem listed kept)
      simp [toFields, areOverloads]
  | method called => exact called.isPlain (depth + 2) representable
  | function called => exact called.isPlain (depth + 2) representable
  | operator slot reflected called =>
      have isCalled : Json.IsPlain (depth + 4) (.object called.toFields) :=
        .object (called.isPlain (depth + 1) representable)
      simp [toFields, isCalled]
  | _ =>
      simp [toFields, ContextRecord.toFields, EnumRecord.toFields, FieldRecord.toFields,
        PropertyRecord.toFields, EnumeratorRecord.toFields, AliasRecord.toFields]

/-- Records nest to six lists and objects: a list of records with a list of constructors, with
arguments in a list. -/
theorem isPlain_listToJson (depth : Nat) {records : List Record}
    (representable : ∀ record ∈ records, record.IsRepresentable) :
    (listToJson records).IsPlain (depth + 6) := by
  refine .array_map fun record listed => .object ?_
  rw [List.forall_mem_cons]
  exact ⟨.string _ _, isPlain_toFields depth (representable record listed)⟩

/-! ## Lists of records -/

theorem listToJson_inj {records others : List Record}
    (representable : ∀ record ∈ records, record.IsRepresentable)
    (othersRepresentable : ∀ record ∈ others, record.IsRepresentable)
    (same : listToJson records = listToJson others) : records = others := by
  have isRead := listOfJson?_listToJson representable
  rw [same, listOfJson?_listToJson othersRepresentable, Option.some.injEq] at isRead
  exact isRead.symm

theorem eq_of_write_eq {Written : Type} {write : Json → Written} (lossless : Json.Lossless write)
    {records others : List Record} (representable : ∀ record ∈ records, record.IsRepresentable)
    (othersRepresentable : ∀ record ∈ others, record.IsRepresentable)
    (same : write (listToJson records) = write (listToJson others)) : records = others := by
  have sameValue := lossless (isPlain_listToJson 121 representable)
    (isPlain_listToJson 121 othersRepresentable) same
  exact listToJson_inj representable othersRepresentable sameValue

/-- What is written for the records is read as just these, and no other records are written
alike. -/
structure Decodes (records : List Record) : Prop where
  read : listOfJson? (listToJson records) = some records
  /-- Whatever form loses nothing tells the records from all others. -/
  writtenApart : ∀ {Written : Type} {write : Json → Written}, Json.Lossless write →
    ∀ {others : List Record}, (∀ record ∈ others, record.IsRepresentable) →
      write (listToJson records) = write (listToJson others) → records = others
  /-- Text does, and so does MessagePack for as much as it has sizes for. -/
  outputApart : ∀ {format : CommandLine.Format} {others : List Record},
    (∀ record ∈ others, record.IsRepresentable) →
    (format = .messagePack → MessagePack.fits (listToJson records) = true ∧
      MessagePack.fits (listToJson others) = true) →
    CommandLine.Output.ofRecords format records = CommandLine.Output.ofRecords format others →
      records = others

theorem listToJson_decodes {records : List Record}
    (representable : ∀ record ∈ records, record.IsRepresentable) : Decodes records where
  read := listOfJson?_listToJson representable
  writtenApart lossless _ othersRepresentable same :=
    eq_of_write_eq lossless representable othersRepresentable same
  outputApart := by
    intro format others othersRepresentable fits same
    cases format with
    | json =>
        have sameText := CommandLine.Output.text.inj same
        rw [String.append_left_inj] at sameText
        exact eq_of_write_eq Json.lossless_toPrettyText representable othersRepresentable sameText
    | messagePack =>
        have sameBytes := CommandLine.Output.bytes.inj same
        have sameValue := MessagePack.eq_of_encode_eq (fits rfl).1 (fits rfl).2 sameBytes
        exact listToJson_inj representable othersRepresentable sameValue

/-- A function with a pair of arguments, of which one is kept alive. -/
def resized : FunctionRecord where
  scope := "context_0"
  name := "resize"
  qualifiedName := "Buffer::resize"
  parameters := [⟨"size", "unsigned", true, some "0", true, false⟩]
  returns := ⟨"Buffer &", .referenceInternal⟩
  keepAlive := [⟨1, 2⟩]
  isStatic := false
  isConst := false
  doc := some "Changes the \"size\"."
  inlinedFrom := none

/-- The size of a buffer. -/
def bufferSize : FieldRecord where
  scope := "context_0"
  name := "size"
  qualifiedName := "Buffer::size"
  type := "unsigned"
  readonly := true
  isStatic := false
  doc := none
  inlinedFrom := none

/-- A class as it is opened, with the sort of the context inside. -/
def openedBuffer : ContextRecord where
  identifier := "context_0"
  scope := some "root"
  qualifiedName := "Buffer"
  exposedName := "Buffer"
  sort := .class ["root"] none false
  doc := none

/-- Records that differ in their kinds, where their fields are those of a function, or of a field. -/
def bufferRecords : List Record :=
  [.contextOpen openedBuffer, .method resized, .operator "__ilshift__" false resized,
    .field bufferSize, .contextClose "context_0" true]

/-- The same fields for other kinds of records. -/
def looseRecords : List Record :=
  [.contextOpen openedBuffer, .function resized, .operator "__ilshift__" false resized,
    .variable bufferSize, .contextClose "context_0" true]

theorem bufferRecords_decode :
    (∀ record ∈ bufferRecords, record.IsRepresentable) ∧
      (∀ record ∈ looseRecords, record.IsRepresentable) ∧
      MessagePack.fits (listToJson bufferRecords) = true ∧
      MessagePack.fits (listToJson looseRecords) = true ∧
      listOfJson? (listToJson bufferRecords) = some bufferRecords ∧
      (listToJson bufferRecords).toPrettyText ≠ (listToJson looseRecords).toPrettyText ∧
      ∀ format, CommandLine.Output.ofRecords format bufferRecords ≠
        CommandLine.Output.ofRecords format looseRecords := by
  have representable : ∀ record ∈ bufferRecords, record.IsRepresentable := by decide
  have looseRepresentable : ∀ record ∈ looseRecords, record.IsRepresentable := by decide
  have isFit : MessagePack.fits (listToJson bufferRecords) = true := by decide +kernel
  have looseFit : MessagePack.fits (listToJson looseRecords) = true := by decide +kernel
  have different : bufferRecords ≠ looseRecords := by decide
  have decodes : Decodes bufferRecords := listToJson_decodes representable
  refine ⟨representable, looseRepresentable, isFit, looseFit, decodes.read, ?_, ?_⟩
  · intro same
    exact different (decodes.writtenApart Json.lossless_toPrettyText looseRepresentable same)
  · intro format same
    exact different (decodes.outputApart looseRepresentable (fun _ => ⟨isFit, looseFit⟩) same)

end Record

end Registrar
