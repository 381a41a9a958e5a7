import Mathlib
import Registrar.Proofs.References

/-!
Contract: what a merged annotation asks for.

Owns: that an annotation that two are merged into asks for what either asks for,
with the two parts of which this is not so, and when it matters which of the two
comes first.

Does not own: which annotations contradict each other.

Two selections of bases are united, and two selections of instantiations are
not: the first stands, whatever the second selects. Nor are two placements
compared, of which the first stands as well.
-/

set_option autoImplicit false

namespace Registrar

/-! ## Selections -/

/-- What is asked of a selection: that there is one, be it of nothing, that it is of
everything, and that the item with a name is selected. -/
inductive SelectionRequest where
  | present
  | everything
  | item (name : String)
  deriving DecidableEq

/-- The names in a selection that is not of everything. -/
def BaseSelection.names? : BaseSelection → Option (List String)
  | .all => none
  | .named names => some names

/-- The lists of arguments in a selection that is not of everything. -/
def InstantiationSelection.names? : InstantiationSelection → Option (List String)
  | .all => none
  | .only argumentLists => some argumentLists

namespace SelectionRequest

/-- Whether a selection, if there is one, meets the request. It is of everything, or of
the listed names. -/
def MetBy : SelectionRequest → Option (Option (List String)) → Prop
  | present, selection => selection.isSome = true
  | everything, selection => selection = some none
  | item name, selection => ∃ names?, selection = some names? ∧ ∀ names ∈ names?, name ∈ names

/-- The union of two selections meets what either meets. -/
theorem metBy_mergeBases {request : SelectionRequest} {mine theirs : Option BaseSelection} :
    request.MetBy ((Marking.mergeBases mine theirs).map BaseSelection.names?) ↔
      request.MetBy (mine.map BaseSelection.names?) ∨
        request.MetBy (theirs.map BaseSelection.names?) := by
  cases mine with
  | none => cases theirs <;> cases request <;> simp [Marking.mergeBases, MetBy]
  | some mine =>
      cases theirs with
      | none => cases request <;> simp [Marking.mergeBases, MetBy]
      | some theirs =>
          cases mine <;> cases theirs <;> cases request <;>
            simp [Marking.mergeBases, BaseSelection.union, BaseSelection.names?, MetBy,
              mem_appendNew]

/-- The request is met by the first selection, or by the second where there is no first. -/
theorem metBy_or {request : SelectionRequest}
    {mine theirs : Option InstantiationSelection} :
    request.MetBy ((mine.or theirs).map InstantiationSelection.names?) ↔
      request.MetBy (mine.map InstantiationSelection.names?) ∨
        request.MetBy (theirs.map InstantiationSelection.names?) ∧ ¬ mine.isSome = true := by
  cases mine with
  | none => cases request <;> simp [MetBy]
  | some selection => simp

/-- What meets a request is there. -/
theorem isSome_of_metBy {request : SelectionRequest} {selection : Option (Option (List String))}
    (isMet : request.MetBy selection) : selection.isSome = true := by
  cases request with
  | present => exact isMet
  | everything => rw [isMet]; rfl
  | item name =>
      obtain ⟨names?, isSelection, _⟩ := isMet
      rw [isSelection]
      rfl

end SelectionRequest

/-- The two selections, where both are made, are of the same instantiations. -/
def InstantiationSelection.AgreeOn (mine theirs : Option InstantiationSelection) : Prop :=
  mine.isSome = true → theirs.isSome = true → ∀ request : SelectionRequest,
    request.MetBy (mine.map names?) ↔ request.MetBy (theirs.map names?)

namespace Marking

/-! ## Requests -/

/-- One thing that an annotation can ask for: a value, a flag, an item of a list, or
part of a selection. -/
inductive Request where
  | visible (value : Bool)
  | exposeAs (name : String)
  | isModule
  | moduleName (name : String)
  | onlyExposeIn (moduleName : String)
  | exposeHere (relocation : Relocation)
  | encourage
  | instantiations (request : SelectionRequest)
  | arithmetic (value : Bool)
  | exportValues (value : Bool)
  | dynamicAttributes (value : Bool)
  | holderType (type : String)
  | hideBase (request : SelectionRequest)
  | inlineBase (request : SelectionRequest)
  | keepAlive (pair : ArgumentRef × ArgumentRef)
  | noConversion (selection : ArgumentSelection)
  | required (reference : ArgumentRef)
  | returnPolicy (policy : ReturnPolicy)
  | getterFor (property : String)
  | setterFor (property : String)
  | implicitConversion (value : Bool)
  | readonly (value : Bool)
  | manual
  | placement (place : Placement)
  deriving DecidableEq

/-- Whether the annotation asks for it. -/
def AsksFor (marking : Marking) : Request → Prop
  | .visible value => marking.visible = some value
  | .exposeAs name => marking.exposeAs = some name
  | .isModule => marking.isModule = true
  | .moduleName name => marking.moduleName = some name
  | .onlyExposeIn moduleName => moduleName ∈ marking.onlyExposeIn
  | .exposeHere relocation => marking.exposeHere = some relocation
  | .encourage => marking.encourage = true
  | .instantiations request =>
      request.MetBy (marking.instantiations.map InstantiationSelection.names?)
  | .arithmetic value => marking.arithmetic = some value
  | .exportValues value => marking.exportValues = some value
  | .dynamicAttributes value => marking.dynamicAttributes = some value
  | .holderType type => marking.holderType = some type
  | .hideBase request => request.MetBy (marking.hideBase.map BaseSelection.names?)
  | .inlineBase request => request.MetBy (marking.inlineBase.map BaseSelection.names?)
  | .keepAlive pair => pair ∈ marking.keepAlive
  | .noConversion selection => marking.noConversion = some selection
  | .required reference => reference ∈ marking.required
  | .returnPolicy policy => marking.returnPolicy = some policy
  | .getterFor property => property ∈ marking.getterFor
  | .setterFor property => property ∈ marking.setterFor
  | .implicitConversion value => marking.implicitConversion = some value
  | .readonly value => marking.readonly = some value
  | .manual => marking.manual = true
  | .placement place => marking.placement = some place

/-- Whether the annotation settles the matter, so that a redeclaration has no say in it. -/
def Settles (marking : Marking) : Request → Prop
  | .instantiations _ => marking.instantiations.isSome = true
  | .placement _ => marking.placement.isSome = true
  | _ => False

/-! ## Merged requests -/

variable {mine theirs merged : Marking}

/-- What two annotations are merged into asks for what either asks for, but for what the
first one settles. -/
theorem asksFor_merged_iff (isMerged : mine.mergeRedeclaration theirs = (merged, none))
    (request : Request) :
    merged.AsksFor request ↔
      mine.AsksFor request ∨ theirs.AsksFor request ∧ ¬ mine.Settles request := by
  obtain ⟨agree, rfl⟩ := mergeRedeclaration_eq_iff.mp isMerged
  unfold Contradicts at agree
  simp only [not_or] at agree
  cases request with
  | instantiations request => exact SelectionRequest.metBy_or
  | placement place =>
      simp only [AsksFor, Settles, mergeCollections, fill, Option.or_eq_some_iff,
        Option.not_isSome_iff_eq_none, and_comm]
  | hideBase request | inlineBase request =>
      simp only [AsksFor, Settles, mergeCollections, not_false_eq_true, and_true]
      exact SelectionRequest.metBy_mergeBases
  | isModule | encourage | manual => simp [AsksFor, Settles, mergeCollections, fill]
  | onlyExposeIn item | keepAlive item | required item | getterFor item | setterFor item =>
      simp only [AsksFor, Settles, mergeCollections, not_false_eq_true, and_true]
      exact mem_appendNew
  | _ =>
      simp only [AsksFor, Settles, mergeCollections, fill, not_false_eq_true, and_true]
      exact or_eq_some_iff_of_agree (by simp only [agree, not_false_eq_true])

/-- The two annotations, where both select instantiations, select the same, and where both
are placed, are placed alike. -/
def Concur (mine theirs : Marking) : Prop :=
  InstantiationSelection.AgreeOn mine.instantiations theirs.instantiations ∧
    ¬ Differ mine.placement theirs.placement

theorem Concur.symm (concur : mine.Concur theirs) : theirs.Concur mine :=
  ⟨fun isTheirs isMine request => (concur.1 isMine isTheirs request).symm,
    differ_comm.not.mp concur.2⟩

/-- Of annotations that concur, the second asks for nothing that the first settles
otherwise. -/
theorem Concur.asksFor_of_settles (concur : mine.Concur theirs) {request : Request}
    (settled : mine.Settles request) (asked : theirs.AsksFor request) :
    mine.AsksFor request := by
  cases request with
  | instantiations request =>
      have isTheirs := SelectionRequest.isSome_of_metBy asked
      rw [Option.isSome_map] at isTheirs
      exact (concur.1 settled isTheirs request).mpr asked
  | placement place =>
      obtain ⟨own, isMine⟩ := Option.isSome_iff_exists.mp settled
      have same : own = place := by
        by_contra differs
        exact concur.2 ⟨own, place, isMine, asked, differs⟩
      show mine.placement = some place
      rw [isMine, same]
  | _ => cases settled

theorem asksFor_merged_of_concur (isMerged : mine.mergeRedeclaration theirs = (merged, none))
    (concur : mine.Concur theirs) (request : Request) :
    merged.AsksFor request ↔ mine.AsksFor request ∨ theirs.AsksFor request := by
  rw [asksFor_merged_iff isMerged]
  constructor
  · exact Or.imp_right And.left
  · rintro (asked | asked)
    · exact .inl asked
    · by_cases settled : mine.Settles request
      · exact .inl (concur.asksFor_of_settles settled asked)
      · exact .inr ⟨asked, settled⟩

/-- Two annotations that agree are merged into what asks for all that either asks for, and
for the same whichever comes first, if and only if they concur in their instantiations and
their placement. -/
theorem mergeRedeclaration_unites_iff
    (isMerged : mine.mergeRedeclaration theirs = (merged, none)) :
    ((∀ request, merged.AsksFor request ↔ mine.AsksFor request ∨ theirs.AsksFor request) ∧
      ∃ swapped, theirs.mergeRedeclaration mine = (swapped, none) ∧
        ∀ request, swapped.AsksFor request ↔ merged.AsksFor request) ↔
      mine.Concur theirs := by
  constructor
  · rintro ⟨unites, swapped, isSwapped, same⟩
    have settled (request : Request) (settles : mine.Settles request)
        (asked : theirs.AsksFor request) : mine.AsksFor request := by
      have isAsked := (unites request).mpr (.inr asked)
      rw [asksFor_merged_iff isMerged] at isAsked
      exact isAsked.resolve_right fun theirsAlone => theirsAlone.2 settles
    have settledBack (request : Request) (settles : theirs.Settles request)
        (asked : mine.AsksFor request) : theirs.AsksFor request := by
      have isAsked := (same request).mpr ((unites request).mpr (.inl asked))
      rw [asksFor_merged_iff isSwapped] at isAsked
      exact isAsked.resolve_right fun mineAlone => mineAlone.2 settles
    constructor
    · intro isMine isTheirs request
      exact ⟨settledBack (.instantiations request) isTheirs,
        settled (.instantiations request) isMine⟩
    · rintro ⟨own, other, isMine, isTheirs, differs⟩
      have asked : mine.placement = some other :=
        settled (.placement other) (by simp [Settles, isMine]) isTheirs
      exact differs (Option.some.inj (isMine.symm.trans asked))
  · intro concur
    have agree := (mergeRedeclaration_eq_iff.mp isMerged).1
    have isSwapped := mergeRedeclaration_eq_iff.mpr ⟨contradicts_comm.not.mp agree, rfl⟩
    refine ⟨asksFor_merged_of_concur isMerged concur, _, isSwapped, fun request => ?_⟩
    rw [asksFor_merged_of_concur isSwapped concur.symm, asksFor_merged_of_concur isMerged concur,
      or_comm]

/-- A template of which the instantiations over `int` are exposed. -/
def exposesOverInt : Marking := { instantiations := some (.only ["int"]) }

/-- A redeclaration of it that asks for the instantiations over `bool` too. -/
def exposesOverBool : Marking := { instantiations := some (.only ["bool"]) }

/-- The request of the redeclaration is lost. -/
theorem exposesOverInt_losesBool :
    exposesOverInt.mergeRedeclaration exposesOverBool = (exposesOverInt, none) ∧
      ¬ ((∀ request, exposesOverInt.AsksFor request ↔
          exposesOverInt.AsksFor request ∨ exposesOverBool.AsksFor request) ∧
        ∃ swapped, exposesOverBool.mergeRedeclaration exposesOverInt = (swapped, none) ∧
          ∀ request, swapped.AsksFor request ↔ exposesOverInt.AsksFor request) := by
  have isMerged : exposesOverInt.mergeRedeclaration exposesOverBool = (exposesOverInt, none) := by
    decide
  refine ⟨isMerged, ?_⟩
  rw [mergeRedeclaration_unites_iff isMerged]
  intro concur
  have sameItem := concur.1 rfl rfl (.item "bool")
  simp [exposesOverInt, exposesOverBool, SelectionRequest.MetBy,
    InstantiationSelection.names?] at sameItem

end Marking

/-! ## Entities -/

namespace Entity

variable {table : MarkingTable} {request : Marking.Request}

/-- What annotations of redeclarations that agree ask for together, one of them asks for. -/
theorem asksFor_of_mergeMarkings {name : String} {marking : Marking}
    {declarations : List Declaration}
    (agree : (mergeMarkings table name marking declarations).2 = [])
    (asked : (mergeMarkings table name marking declarations).1.AsksFor request) :
    marking.AsksFor request ∨
      ∃ declaration ∈ declarations, (table.get declaration.id).AsksFor request := by
  induction declarations generalizing marking with
  | nil => exact .inl asked
  | cons declaration rest inductionHypothesis =>
      cases isMerged : marking.mergeRedeclaration (table.get declaration.id) with
      | mk merged conflict =>
          cases conflict with
          | some kind => simp [mergeMarkings, isMerged] at agree
          | none =>
              simp only [mergeMarkings, isMerged] at agree asked
              rcases inductionHypothesis agree asked with here | ⟨other, listed, there⟩
              · rw [Marking.asksFor_merged_iff isMerged] at here
                exact here.imp_right fun theirs => ⟨declaration, List.mem_cons_self, theirs.1⟩
              · exact .inr ⟨other, List.mem_cons_of_mem declaration listed, there⟩

/-- What an entity asks for, one of its declarations asks for. -/
theorem exists_asking {groups : List Group} {entity : Entity}
    (agree : (ofGroups table groups).2 = []) (member : entity ∈ (ofGroups table groups).1)
    (asked : entity.marking.AsksFor request) :
    ∃ id ∈ entity.declarations, (table.get id).AsksFor request := by
  obtain ⟨index, group, _, rfl, ownAgree⟩ := exists_agreeing_group agree member
  have declares {declaration : Declaration} (listed : declaration ∈ group.inSourceOrder) :
      declaration.id ∈ (ofGroup table groups index group).1.declarations :=
    List.mem_map_of_mem listed
  rcases asksFor_of_mergeMarkings ownAgree asked with here | ⟨other, listed, there⟩
  · exact ⟨group.primary.id, declares (Group.mem_inSourceOrder.mpr group.primary_mem_members), here⟩
  · exact ⟨other.id, declares (List.mem_of_mem_tail listed), there⟩

end Entity

/-- What a node asks for, one of its declarations asks for. -/
theorem Graph.exists_asking {unit : TranslationUnit} {table : MarkingTable} {graph : Graph}
    (built : ofUnit unit table = .ok graph) {node : Node} (member : node ∈ graph.nodes)
    (request : Marking.Request) (asked : node.marking.AsksFor request) :
    ∃ declaration ∈ unit.declarations, (table.get declaration.id).AsksFor request := by
  obtain ⟨entity, isEntity, rfl⟩ := exists_entity_of_mem built member
  obtain ⟨id, isDeclared, asks⟩ :=
    Entity.exists_asking (nodes_of_ofUnit built).2.2 isEntity asked
  obtain ⟨declaration, listed, rfl⟩ := Entity.exists_declaration isEntity isDeclared
  exact ⟨declaration, listed, asks⟩

end Registrar
