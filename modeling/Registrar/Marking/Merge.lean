import Registrar.Marking.Basic

/-!
Contract: merging the annotations of redeclarations.

Owns: what two declarations of one entity say together, and on which directive
they contradict each other.

Does not own: which declarations declare one entity.
-/

set_option autoImplicit false

namespace Registrar.Marking

/-- Whether both are set, to different values. -/
def disagree {α : Type} [DecidableEq α] : Option α → Option α → Bool
  | some mine, some theirs => mine != theirs
  | _, _ => false

/-- A part of annotations that has one value, which both must agree on. -/
structure SingleValued where
  kind : DirectiveKind
  disagreeOn : Marking → Marking → Bool
  fillFrom : Marking → Marking → Marking

/-- The parts with one value, in the order in which they are compared. -/
def singleValued : List SingleValued :=
  [ ⟨.visible, fun mine theirs => disagree mine.visible theirs.visible,
      fun mine theirs => { mine with visible := mine.visible.or theirs.visible }⟩,
    ⟨.exposeAs, fun mine theirs => disagree mine.exposeAs theirs.exposeAs,
      fun mine theirs => { mine with exposeAs := mine.exposeAs.or theirs.exposeAs }⟩,
    ⟨.module, fun mine theirs => disagree mine.moduleName theirs.moduleName,
      fun mine theirs => { mine with moduleName := mine.moduleName.or theirs.moduleName }⟩,
    ⟨.exposeHere, fun mine theirs => disagree mine.exposeHere theirs.exposeHere,
      fun mine theirs => { mine with exposeHere := mine.exposeHere.or theirs.exposeHere }⟩,
    ⟨.arithmetic, fun mine theirs => disagree mine.arithmetic theirs.arithmetic,
      fun mine theirs => { mine with arithmetic := mine.arithmetic.or theirs.arithmetic }⟩,
    ⟨.exportValues, fun mine theirs => disagree mine.exportValues theirs.exportValues,
      fun mine theirs =>
        { mine with exportValues := mine.exportValues.or theirs.exportValues }⟩,
    ⟨.dynamicAttributes,
      fun mine theirs => disagree mine.dynamicAttributes theirs.dynamicAttributes,
      fun mine theirs =>
        { mine with dynamicAttributes := mine.dynamicAttributes.or theirs.dynamicAttributes }⟩,
    ⟨.holderType, fun mine theirs => disagree mine.holderType theirs.holderType,
      fun mine theirs => { mine with holderType := mine.holderType.or theirs.holderType }⟩,
    ⟨.returnValuePolicy, fun mine theirs => disagree mine.returnPolicy theirs.returnPolicy,
      fun mine theirs =>
        { mine with returnPolicy := mine.returnPolicy.or theirs.returnPolicy }⟩,
    ⟨.implicitConversion,
      fun mine theirs => disagree mine.implicitConversion theirs.implicitConversion,
      fun mine theirs =>
        { mine with
          implicitConversion := mine.implicitConversion.or theirs.implicitConversion }⟩,
    ⟨.readonly, fun mine theirs => disagree mine.readonly theirs.readonly,
      fun mine theirs => { mine with readonly := mine.readonly.or theirs.readonly }⟩,
    ⟨.noConversion, fun mine theirs => disagree mine.noConversion theirs.noConversion,
      fun mine theirs =>
        { mine with noConversion := mine.noConversion.or theirs.noConversion }⟩ ]

/-- Fills parts with one value in order, up to the first on which the two
disagree, which is named. -/
def fillSingleValued : List SingleValued → Marking → Marking →
    Marking × Option DirectiveKind
  | [], mine, _ => (mine, none)
  | part :: rest, mine, theirs =>
      if part.disagreeOn mine theirs then (mine, some part.kind)
      else fillSingleValued rest (part.fillFrom mine theirs) theirs

def mergeBases : Option BaseSelection → Option BaseSelection → Option BaseSelection
  | some mine, some theirs => some (mine.union theirs)
  | mine, theirs => mine.or theirs

/-- The parts with many values, merged: flags hold if either does, lists and
selections of bases are united, and the selection of instantiations and the
placement are those of the first that has one. -/
def mergeCollections (mine theirs : Marking) : Marking :=
  { mine with
    isModule := mine.isModule || theirs.isModule
    encourage := mine.encourage || theirs.encourage
    manual := mine.manual || theirs.manual
    onlyExposeIn := appendNew mine.onlyExposeIn theirs.onlyExposeIn
    getterFor := appendNew mine.getterFor theirs.getterFor
    setterFor := appendNew mine.setterFor theirs.setterFor
    required := appendNew mine.required theirs.required
    keepAlive := appendNew mine.keepAlive theirs.keepAlive
    hideBase := mergeBases mine.hideBase theirs.hideBase
    inlineBase := mergeBases mine.inlineBase theirs.inlineBase
    instantiations := mine.instantiations.or theirs.instantiations
    placement := mine.placement.or theirs.placement }

/-- The annotation together with that of a redeclaration. If the two disagree,
the directive is named, and what was merged before stays so. -/
def mergeRedeclaration (mine theirs : Marking) : Marking × Option DirectiveKind :=
  match fillSingleValued singleValued mine theirs with
  | (filled, none) => (mergeCollections filled theirs, none)
  | conflicting => conflicting

end Registrar.Marking
