import Mathlib
import Registrar.Proofs.Graph.Wiring
import Registrar.Proofs.Merging.Requests
import Registrar.Proofs.Spelling

/-!
Contract: instantiations that a template lists.

Owns: that an annotation asks for every list of arguments that one of its directives has, and that
a template asks for an instantiation whose arguments it lists as they are spelled.

Does not own: how a list is split, and what redeclarations of a template ask for together.
-/

set_option autoImplicit false

namespace Registrar

/-! ## Annotations -/

namespace Marking

variable {marking extended : Marking} {target : Target} {list : String}

/-- Where a block is placed is all that placing it changes. -/
theorem eq_of_place {placement : Placement} (placed : marking.place placement = .ok extended) :
    extended = { marking with placement := some placement } := by
  unfold place at placed
  split at placed
  · exact (Except.ok.inj placed).symm
  · split at placed
    · exact (Except.ok.inj placed).symm
    · cases placed

/-- Only one directive selects instantiations. -/
theorem add_instantiations {directive : Directive}
    (added : marking.add target directive = .ok extended)
    (isOther : directive.kind ≠ .exposeInstantiations) :
    extended.instantiations = marking.instantiations := by
  cases directive with
  | exposeInstantiations argumentLists => exact absurd rfl isOther
  | exposeHere context =>
      change (relocation target context).map _ = _ at added
      cases isPlace : relocation target context with
      | error cause =>
          rw [isPlace] at added
          cases added
      | ok place =>
          rw [isPlace] at added
          rw [← Except.ok.inj added]
  | early => rw [eq_of_place added]
  | postamble => rw [eq_of_place added]
  | before member => rw [eq_of_place added]
  | after member => rw [eq_of_place added]
  | _ => rw [← Except.ok.inj added]

/-- A selection of some instantiations grows, and one of all stays. -/
theorem metBy_selectInstantiations {previous : Option InstantiationSelection}
    {argumentLists : Option (List String)}
    (asked : (SelectionRequest.item list).MetBy (previous.map InstantiationSelection.names?) ∨
      ∃ lists, argumentLists = some lists ∧ list ∈ lists) :
    (SelectionRequest.item list).MetBy
      (some (selectInstantiations previous argumentLists).names?) := by
  cases argumentLists with
  | none => exact ⟨none, rfl, nofun⟩
  | some lists =>
      rcases previous with _ | _ | earlier
      · simpa [selectInstantiations, InstantiationSelection.names?, SelectionRequest.MetBy]
          using asked
      · exact ⟨none, rfl, nofun⟩
      · simpa [selectInstantiations, InstantiationSelection.names?, SelectionRequest.MetBy]
          using asked

/-- No directive takes back what is asked of a template. -/
theorem asksFor_add {directive : Directive}
    (added : marking.add target directive = .ok extended)
    (asked : marking.AsksFor (.instantiations (.item list)) ∨
      ∃ lists, directive = .exposeInstantiations (some lists) ∧ list ∈ lists) :
    extended.AsksFor (.instantiations (.item list)) := by
  by_cases selects : directive.kind = .exposeInstantiations
  · cases directive with
    | exposeInstantiations argumentLists =>
        rw [← Except.ok.inj added]
        refine metBy_selectInstantiations (asked.imp_right fun written => ?_)
        obtain ⟨lists, isDirective, listed⟩ := written
        exact ⟨lists, Directive.exposeInstantiations.inj isDirective, listed⟩
    | _ => cases selects
  · have same := add_instantiations added selects
    have here := asked.resolve_right (by rintro ⟨lists, rfl, _⟩; exact selects rfl)
    rw [AsksFor, same]
    exact here

theorem asksFor_addAll {directives : List Directive}
    (added : marking.addAll target directives = .ok extended)
    (asked : marking.AsksFor (.instantiations (.item list)) ∨
      ∃ lists, .exposeInstantiations (some lists) ∈ directives ∧ list ∈ lists) :
    extended.AsksFor (.instantiations (.item list)) := by
  induction directives generalizing marking with
  | nil =>
      rw [← Except.ok.inj added]
      exact asked.resolve_right fun ⟨_, listed, _⟩ => List.not_mem_nil listed
  | cons directive rest inductionHypothesis =>
      unfold addAll at added
      split at added
      · split at added
        · rename_i further isAdded
          apply inductionHypothesis added
          rcases asked with here | ⟨lists, listed, member⟩
          · exact .inl (asksFor_add isAdded (.inl here))
          · rcases List.mem_cons.mp listed with rfl | inRest
            · exact .inl (asksFor_add isAdded (.inr ⟨lists, rfl, member⟩))
            · exact .inr ⟨lists, inRest, member⟩
        · cases added
      · cases added

/-- A template asks for whatever its annotation lists, in one directive or in several. -/
theorem asksFor_of_exposeInstantiations {directives : List Directive} {lists : List String}
    (isMarking : ofDirectives directives target = .ok marking)
    (written : .exposeInstantiations (some lists) ∈ directives) (listed : list ∈ lists) :
    marking.AsksFor (.instantiations (.item list)) := by
  unfold ofDirectives at isMarking
  split at isMarking
  · cases isMarking
  · rename_i final added
    split at isMarking
    · cases isMarking
    · rw [← Except.ok.inj isMarking]
      exact asksFor_addAll added (.inr ⟨lists, written, listed⟩)

end Marking

/-! ## Templates -/

/-- The node instantiates the template, with arguments of these spellings. -/
structure Graph.Instantiates (graph : Graph) (node template : Node) (spellings : List String) :
    Prop where
  arguments : ∃ use, node.kind.template? = some use ∧
    use.arguments.map TemplateArgument.spelling = spellings
  template : node.template.bind graph.node? = some template

namespace InstantiationRequest

variable {graph : Graph} {node template : Node} {use : TemplateUse} {spellings : List String}
  {list : String}

theorem argumentsOf_eq (areSpellings : use.arguments.map TemplateArgument.spelling = spellings) :
    InstantiationKey.argumentsOf use = spellings.map Spelling.normalize := by
  rw [← areSpellings, List.map_map]
  rfl

theorem byTemplate?_eq (isUse : node.kind.template? = some use)
    (isTemplate : node.template.bind graph.node? = some template) :
    byTemplate? graph node =
      template.marking.instantiations.bind fun selection => bySelection? selection use := by
  rw [byTemplate?, isUse, isTemplate]
  rfl

theorem bySelection?_only {lists : List String} (listed : list ∈ lists)
    (isList : Spelling.splitArguments list = InstantiationKey.argumentsOf use) :
    bySelection? (.only lists) use = some .listed := by
  rw [bySelection?, if_pos]
  exact List.any_eq_true.mpr ⟨list, listed, beq_iff_eq.mpr isList⟩

/-- What lists the arguments asks for the instantiation, and so does what asks for all. -/
theorem isSome_bySelection? {selection : InstantiationSelection}
    (listed : ∀ lists ∈ selection.names?, list ∈ lists)
    (isList : Spelling.splitArguments list = InstantiationKey.argumentsOf use) :
    (bySelection? selection use).isSome = true := by
  cases selection with
  | all => rfl
  | only lists => rw [bySelection?_only (listed lists rfl) isList, Option.isSome_some]

/-- A template that asks for a list asks for its instantiations with the arguments in it. -/
theorem isSome_byTemplate? (isList : Spelling.splitArguments list = spellings.map Spelling.normalize)
    (instantiates : graph.Instantiates node template spellings)
    (asked : template.marking.AsksFor (.instantiations (.item list))) :
    (byTemplate? graph node).isSome = true := by
  obtain ⟨⟨use, isUse, areSpellings⟩, isTemplate⟩ := instantiates
  obtain ⟨names?, isSelection, listed⟩ := asked
  obtain ⟨selection, isSelected, rfl⟩ := Option.map_eq_some_iff.mp isSelection
  rw [← argumentsOf_eq areSpellings] at isList
  rw [byTemplate?_eq isUse isTemplate, isSelected]
  exact isSome_bySelection? listed isList

end InstantiationRequest

namespace Spelling

/-- The list is split into the spellings, without needless blanks. Whatever template lists it asks
for each of its instantiations with arguments of these spellings. -/
structure SplitsBack (spellings : List String) (list : String) : Prop where
  arguments : splitArguments list = spellings.map normalize
  requested : ∀ {graph : Graph} {node template : Node}, graph.Instantiates node template spellings →
    template.marking.AsksFor (.instantiations (.item list)) →
      (InstantiationRequest.byTemplate? graph node).isSome = true
  /-- It is enough that one directive of the template has the list, whatever others say. -/
  written : ∀ {graph : Graph} {node template : Node} {directives : List Directive}
    {target : Target} {lists : List String}, graph.Instantiates node template spellings →
    Marking.ofDirectives directives target = .ok template.marking →
    .exposeInstantiations (some lists) ∈ directives → list ∈ lists →
      (InstantiationRequest.byTemplate? graph node).isSome = true
  /-- Unless the template asks for all, the reason for the request is the list. -/
  listed : ∀ {graph : Graph} {node template : Node} {lists : List String},
    graph.Instantiates node template spellings →
    template.marking.instantiations = some (.only lists) → list ∈ lists →
      InstantiationRequest.byTemplate? graph node = some .listed

theorem lists_splitsBack {spellings : List String} {list : String} (nonempty : spellings ≠ [])
    (areArguments : ∀ spelling ∈ spellings, IsArgument spelling) (lists : Lists spellings list) :
    SplitsBack spellings list := by
  have isSplit := splitArguments_of_lists nonempty areArguments lists
  refine ⟨isSplit, InstantiationRequest.isSome_byTemplate? isSplit, ?_, ?_⟩
  · intro graph node template directives target others instantiates isMarking written listed
    have asked := Marking.asksFor_of_exposeInstantiations isMarking written listed
    exact InstantiationRequest.isSome_byTemplate? isSplit instantiates asked
  · intro graph node template others ⟨⟨use, isUse, areSpellings⟩, isTemplate⟩ isSelected listed
    rw [← InstantiationRequest.argumentsOf_eq areSpellings] at isSplit
    rw [InstantiationRequest.byTemplate?_eq isUse isTemplate, isSelected]
    exact InstantiationRequest.bySelection?_only listed isSplit

/-- Arguments of which the first has a comma inside. -/
def tableArguments : List String := ["std::map<int, int>", "bool"]

/-- The list of these arguments, with blanks around them. -/
def tableList : String := " std::map<int, int> ,bool\t"

/-- A template that lists the arguments of its only instantiation, and others. -/
def listedTable : TranslationUnit where
  root := { id := 0, kind := .translationUnit, order := 0 }
  others :=
    [ { id := 1, kind := .classTemplate, name := "Table", qualifiedName := "Table", parent := some 0
        order := 1
        payloads := [.map [("expose_instantiations",
          .array [.string "int, int", .string tableList])]] },
      { id := 2
        kind := .class [] (some { template := "Table", arguments := tableArguments.map .type })
        name := "Table<std::map<int, int>, bool>"
        qualifiedName := "Table<std::map<int, int>, bool>", parent := some 0, order := 2 } ]
  valid := by decide

theorem listedTable_splitsBack :
    tableArguments ≠ [] ∧ (∀ spelling ∈ tableArguments, IsArgument spelling) ∧
      Lists tableArguments tableList ∧
      splitArguments tableList = tableArguments.map normalize ∧
      ∃ table graph node, MarkingTable.ofUnit listedTable = .ok table ∧
        Graph.ofUnit listedTable table = .ok graph ∧ graph.node? 2 = some node ∧
        InstantiationRequest.byTemplate? graph node = some .listed := by
  have areArguments : ∀ spelling ∈ tableArguments, IsArgument spelling := by
    rw [tableArguments, List.forall_mem_cons, List.forall_mem_singleton]
    exact ⟨by decide +kernel, by decide +kernel⟩
  have lists : Lists tableArguments tableList := by
    refine ⟨[" std::map<int, int> ", "bool\t"], .cons ?_ (.cons ?_ .nil), by decide +kernel⟩
    · exact ⟨[' '], [' '], List.forall_mem_singleton.mpr rfl, List.forall_mem_singleton.mpr rfl,
        by decide⟩
    · exact ⟨[], ['\t'], nofun, List.forall_mem_singleton.mpr rfl, by decide⟩
  have splitsBack : SplitsBack tableArguments tableList :=
    lists_splitsBack (List.cons_ne_nil _ _) areArguments lists
  have shown : (Graph.withTable? listedTable).any (fun (_, graph) =>
      (graph.node? 2).any fun node => (node.template.bind graph.node?).any fun template =>
        (node.kind.template?.any fun use =>
          use.arguments.map TemplateArgument.spelling == tableArguments) &&
        template.marking.instantiations == some (.only ["int, int", tableList])) = true := by
    decide +kernel
  obtain ⟨table, graph, marked, built, holds⟩ := Graph.exists_of_any shown
  simp only [Option.any_eq_true, Bool.and_eq_true, beq_iff_eq] at holds
  obtain ⟨node, isNode, template, isTemplate, ⟨use, isUse, areSpellings⟩, isSelected⟩ := holds
  have instantiates : graph.Instantiates node template tableArguments :=
    ⟨⟨use, isUse, areSpellings⟩, isTemplate⟩
  have requested := splitsBack.listed instantiates isSelected (by decide)
  exact ⟨List.cons_ne_nil _ _, areArguments, lists, splitsBack.arguments, table, graph, node,
    marked, built, isNode, requested⟩

end Spelling

end Registrar
