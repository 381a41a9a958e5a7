import Mathlib
import Registrar.Proofs.Declaration.Encoding
import Registrar.Proofs.Json.Reader
import Registrar.Proofs.TranslationUnit
import Registrar.TranslationUnit.Encoding

/-!
Contract: units that were written as JSON are read.

Owns: that a unit is read back from its text if its JSON is.

Does not own: which JSON is read back from its text. What is proved of the fields has no part in
this.
-/

set_option autoImplicit false

namespace Registrar

namespace TranslationUnit

/-- All declarations can be held in memory. -/
def IsRepresentable (unit : TranslationUnit) : Prop :=
  ∀ declaration ∈ unit.declarations, declaration.IsRepresentable

instance (unit : TranslationUnit) : Decidable unit.IsRepresentable :=
  inferInstanceAs (Decidable (∀ declaration ∈ unit.declarations, declaration.IsRepresentable))

/-- Around the value of a field of a declaration are the declaration, the list of declarations and
the unit. -/
theorem fields_readable {unit : TranslationUnit}
    (readable : unit.toJson.readableTo Json.textDepth = true) :
    ∀ declaration ∈ unit.declarations, ∀ entry ∈ declaration.toFields,
      entry.2.readableTo Declaration.fieldDepth = true := by
  have inside : Json.itemsReadableTo (Json.textDepth - 2)
      (unit.declarations.map Declaration.toJson) = true := by
    simpa [toJson, Json.textDepth, Json.readableTo, Json.fieldsReadableTo] using readable
  intro declaration member
  have isReadable := Json.itemsReadableTo_iff.mp inside declaration.toJson
    (List.mem_map_of_mem member)
  rw [Declaration.toJson_eq, Json.readableTo, Bool.and_eq_true, Json.fieldsReadableTo_iff]
    at isReadable
  exact isReadable.2

theorem declarationsOfJson?_toJson {unit : TranslationUnit} (representable : unit.IsRepresentable)
    (readable : unit.toJson.readableTo Json.textDepth = true) :
    declarationsOfJson? unit.toJson = some unit.declarations := by
  have areDeclarations : Decode.list? Declaration.ofJson?
      (.array (unit.declarations.map Declaration.toJson)) = some unit.declarations :=
    Decode.list?_map fun declaration member =>
      Declaration.ofJson?_toJson (representable declaration member)
        (fields_readable readable declaration member)
  rw [declarationsOfJson?, toJson, Decode.part?_object (by simp)]
  exact areDeclarations

theorem ofText_toText {unit : TranslationUnit} (representable : unit.IsRepresentable)
    (readsBack : unit.toJson.ReadsBack) : ofText unit.toText = .ok unit := by
  have isUnit : ofJson unit.toJson = .ok unit := by
    rw [ofJson, declarationsOfJson?_toJson representable readsBack.readable]
    dsimp only
    rw [ofDeclarations_eq_ok_iff.mpr rfl]
    rfl
  rw [ofText, toText, readsBack.parsed]
  dsimp only
  rw [isUnit]
  rfl

/-- A unit with a declaration of every kind. -/
def everyKind : TranslationUnit where
  root := { id := 0, kind := .translationUnit, order := 0, location := ⟨"ä.h", 1, 1⟩ }
  others :=
    [ { id := 1, kind := .namespace true, name := "n", qualifiedName := "n", parent := some 0
        order := 1, payloads := [.map [("hidden", .null), ("name", .array [.string "\"m\"\n"])]] },
      { id := 2
        kind := .class [{ qualifiedName := "B", access := .protected, isVirtual := true }]
          (some { template := "C", arguments := [.type "int", .value "1"], origin := .explicit })
        name := "C<int, 1>", qualifiedName := "C<int, 1>", parent := some 0, order := 2
        payloads := [.text "visible", .map []], doc := some "" },
      { id := 3, kind := .classTemplate, name := "C", qualifiedName := "C", parent := some 0
        order := 3 },
      { id := 4, kind := .functionTemplate, name := "f", qualifiedName := "f", parent := some 0
        order := 4 },
      { id := 5, kind := .enum true, name := "E", qualifiedName := "E", parent := some 0
        order := 5 },
      { id := 6, kind := .enumerator (some "-1"), name := "e", qualifiedName := "E::e"
        parent := some 5, order := 6 },
      { id := 7
        kind := .function { parameters := [{ name := "a", type := "int", defaultValue := some "0" }]
                            returnType := "int", isDeleted := true } none
        name := "f", qualifiedName := "f", parent := some 0, order := 7 },
      { id := 8, kind := .method {} true false, name := "m", parent := some 2, order := 8
        access := .private },
      { id := 9, kind := .constructor {} true, parent := some 2, order := 9 },
      { id := 10, kind := .destructor, parent := some 2, order := 10 },
      { id := 11, kind := .conversionFunction {}, parent := some 2, order := 11 },
      { id := 12, kind := .operator "+" {} true, parent := some 2, order := 12 },
      { id := 13, kind := .field "int" true false, parent := some 2, order := 13 },
      { id := 14, kind := .variable "int" true, parent := some 1, order := 14 },
      { id := 15, kind := .typeAlias none, parent := some 1, order := 15 },
      { id := 16, kind := .manualBlock "x();", parent := some 0, order := 1 <<< 32 - 1
        payloads := [.map [("name", .number (.negative 1)), ("other", .object [("a", .null)])]] } ]
  valid := by decide

theorem ofText_everyKind : ofText everyKind.toText = .ok everyKind := by
  have readsBack : everyKind.toJson.ReadsBack :=
    Json.readsBack_of_integers (by decide +kernel) (by decide +kernel) (by decide +kernel)
  exact ofText_toText (by decide +kernel) readsBack

end TranslationUnit

end Registrar
