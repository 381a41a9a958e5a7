import Mathlib
import Registrar.Proofs.Renumbering.Schedule

/-!
Contract: the records of a graph under other numbers.

Owns: that no number of a node gets into a record.

Does not own: in which order units are recorded.
-/

set_option autoImplicit false

namespace Registrar.Record

variable {number : Nat → Nat} {groundwork other : Groundwork} {configuration : Configuration}

/-! ## Scopes -/

def Scopes.renumber (number : Nat → Nat) (scopes : Scopes) : Scopes :=
  { scopes with opened := scopes.opened.map fun entry => (number entry.1, entry.2) }

theorem identifier?_renumber (injective : Function.Injective number) (scopes : Scopes)
    (id : Nat) : (scopes.renumber number).identifier? (number id) = scopes.identifier? id := by
  change (scopes.opened.map fun entry => (number entry.1, entry.2)).lookup (number id) =
    scopes.opened.lookup id
  induction scopes.opened with
  | nil => rfl
  | cons entry rest inductionHypothesis =>
      rw [List.map_cons, List.lookup_cons, List.lookup_cons, injective.beq_eq,
        inductionHypothesis]

theorem around_renumber (renumbers : Groundwork.Renumbers number groundwork other)
    (scopes : Scopes) (node : Node) :
    (scopes.renumber number).around other.graph (node.renumber number) =
      scopes.around groundwork.graph node := by
  unfold Scopes.around
  rw [renumbers.graph.ancestors_eq, List.findSome?_map]
  congr 2
  funext above
  exact identifier?_renumber renumbers.graph.injective scopes above.id

theorem enter_renumber (renumbers : Groundwork.Renumbers number groundwork other)
    (scopes : Scopes) (node : Node) :
    (scopes.renumber number).enter (node.renumber number) =
      ((scopes.enter node).1, (scopes.enter node).2.renumber number) := by
  unfold Scopes.enter
  simp only [Node.renumber_id, renumbers.graph.number_eq_root_iff]
  split <;> simp [Scopes.renumber, Scopes.wanted]

/-! ## Callables -/

theorem callMarking_renumber (renumbers : Groundwork.Renumbers number groundwork other)
    (node : Node) :
    Instantiation.callMarking other.graph (node.renumber number) =
      Instantiation.callMarking groundwork.graph node := by
  unfold Instantiation.callMarking
  rw [Node.renumber_template, renumbers.graph.bind_node?_eq, Node.renumber_marking]
  cases node.template.bind groundwork.graph.node? <;> rfl

theorem inlinedFrom_renumber (renumbers : Groundwork.Renumbers number groundwork other)
    (used : Member) :
    inlinedFrom other.graph (used.renumber number) = inlinedFrom groundwork.graph used := by
  have sameBase : (used.renumber number).inlinedFrom = used.inlinedFrom.map number := rfl
  unfold inlinedFrom
  rw [sameBase, renumbers.graph.bind_node?_eq, Option.map_map]
  rfl

theorem functionRecord?_renumber (renumbers : Groundwork.Renumbers number groundwork other)
    (scope : String) (used : Member) (node : Node) :
    functionRecord? other configuration scope (used.renumber number) (node.renumber number) =
      functionRecord? groundwork configuration scope used node := by
  unfold functionRecord?
  simp only [Node.renumber_kind, Node.renumber_id, callMarking_renumber renumbers,
    renumbers.visibility.exposedName, inlinedFrom_renumber renumbers]
  rfl

theorem operatorRecord_renumber (renumbers : Groundwork.Renumbers number groundwork other)
    (context node : Node) (called : FunctionRecord) :
    operatorRecord other (context.renumber number) (node.renumber number) called =
      operatorRecord groundwork context node called := by
  unfold operatorRecord
  rw [Node.renumber_id, renumbers.operators.slot?_eq, Node.renumber_kind]

theorem fieldRecord_renumber (renumbers : Groundwork.Renumbers number groundwork other)
    (scope : String) (node : Node) (type : String) (isConst isStatic : Bool)
    (from? : Option String) :
    fieldRecord other configuration scope (node.renumber number) type isConst isStatic from? =
      fieldRecord groundwork configuration scope node type isConst isStatic from? := by
  unfold fieldRecord
  rw [Node.renumber_id, renumbers.visibility.exposedName]
  rfl

/-! ## Items -/

theorem ofMember?_renumber (renumbers : Groundwork.Renumbers number groundwork other)
    (scope : String) (context : Node) (used : Member) :
    ofMember? other configuration scope (context.renumber number) (used.renumber number) =
      ofMember? groundwork configuration scope context used := by
  have sameNode : other.graph.node? (used.renumber number).node =
      (groundwork.graph.node? used.node).map (Node.renumber number) :=
    renumbers.graph.node?_eq used.node
  unfold ofMember?
  rw [sameNode]
  cases groundwork.graph.node? used.node with
  | none => rfl
  | some node =>
      simp only [Option.map_some, Option.bind_eq_bind, Option.bind_some, Node.renumber_kind,
        Node.renumber_id, functionRecord?_renumber renumbers, operatorRecord_renumber renumbers,
        fieldRecord_renumber renumbers, inlinedFrom_renumber renumbers,
        renumbers.visibility.exposedName]
      rfl

theorem propertyRecord?_renumber (renumbers : Groundwork.Renumbers number groundwork other)
    (scope : String) (context : Node) (name : String) :
    propertyRecord? other configuration scope (context.renumber number) name =
      propertyRecord? groundwork configuration scope context name := by
  unfold propertyRecord?
  rw [Node.renumber_id, renumbers.properties, List.find?_map]
  cases found : (groundwork.properties.get context.id).find?
      ((fun property => property.name == name) ∘ Property.renumber number) with
  | none =>
      have same : (groundwork.properties.get context.id).find?
          (fun property => property.name == name) = none := found
      rw [same]
      rfl
  | some property =>
      have same : (groundwork.properties.get context.id).find?
          (fun property => property.name == name) = some property := found
      have sameGetter : other.graph.node? (property.renumber number).getter =
          (groundwork.graph.node? property.getter).map (Node.renumber number) :=
        renumbers.graph.node?_eq property.getter
      have sameSetter : (property.renumber number).setter = property.setter.map number := rfl
      rw [same]
      simp only [Option.map_some, Option.bind_eq_bind, Option.bind_some, sameGetter, sameSetter,
        renumbers.graph.bind_node?_eq]
      cases groundwork.graph.node? property.getter with
      | none => rfl
      | some getter =>
          cases property.setter.bind groundwork.graph.node? <;> rfl

theorem ofItem?_renumber (renumbers : Groundwork.Renumbers number groundwork other)
    (scope : String) (context : Node) (item : Item) :
    ofItem? other configuration scope (context.renumber number) (item.renumber number) =
      ofItem? groundwork configuration scope context item := by
  cases item with
  | member used => exact ofMember?_renumber renumbers scope context used
  | constructors nodes =>
      simp only [Item.renumber, ofItem?]
      rw [renumbers.graph.nodesOf_eq, List.filterMap_map]
      rfl
  | property name => exact propertyRecord?_renumber renumbers scope context name
  | manualBlock id =>
      simp only [Item.renumber, ofItem?]
      rw [renumbers.graph.node?_eq]
      cases groundwork.graph.node? id <;> rfl

theorem ofItems_renumber (renumbers : Groundwork.Renumbers number groundwork other)
    (scope : String) (context : Node) (items : List Item) :
    ofItems other configuration scope (context.renumber number)
        (items.map (Item.renumber number)) =
      ofItems groundwork configuration scope context items := by
  unfold ofItems
  rw [List.filterMap_map]
  exact List.filterMap_congr fun item _ => ofItem?_renumber renumbers scope context item

/-! ## Units -/

theorem sortOf?_renumber (renumbers : Groundwork.Renumbers number groundwork other)
    (scopes : Scopes) (node : Node) :
    sortOf? other (scopes.renumber number) (node.renumber number) =
      sortOf? groundwork scopes node := by
  have sameSupertypes : (other.inheritance.registered (number node.id)).filterMap
      (scopes.renumber number).identifier? =
      (groundwork.inheritance.registered node.id).filterMap scopes.identifier? := by
    rw [renumbers.inheritance.registered_eq, List.filterMap_map]
    exact List.filterMap_congr fun id _ =>
      identifier?_renumber renumbers.graph.injective scopes id
  unfold sortOf?
  rw [Node.renumber_kind, Node.renumber_id, sameSupertypes]
  rfl

theorem openRecord_renumber (renumbers : Groundwork.Renumbers number groundwork other)
    (node : Node) (identifier : String) (scope : Option String) (sort : ContextSort) :
    openRecord other configuration (node.renumber number) identifier scope sort =
      openRecord groundwork configuration node identifier scope sort := by
  unfold openRecord
  rw [Node.renumber_id, renumbers.visibility.exposedName]
  rfl

theorem enumRecord_renumber (renumbers : Groundwork.Renumbers number groundwork other)
    (node : Node) (identifier scope : String) (isScoped : Bool) :
    enumRecord other configuration (node.renumber number) identifier scope isScoped =
      enumRecord groundwork configuration node identifier scope isScoped := by
  unfold enumRecord
  rw [Node.renumber_id, renumbers.visibility.exposedName]
  rfl

theorem ofContext_renumber (renumbers : Groundwork.Renumbers number groundwork other)
    (scopes : Scopes) (node : Node) (items : List Item) :
    ofContext other configuration (scopes.renumber number) (node.renumber number)
        (items.map (Item.renumber number)) =
      ((ofContext groundwork configuration scopes node items).1,
        (ofContext groundwork configuration scopes node items).2.renumber number) := by
  unfold ofContext
  simp only [around_renumber renumbers, sortOf?_renumber renumbers, enter_renumber renumbers,
    enumRecord_renumber renumbers, openRecord_renumber renumbers, ofItems_renumber renumbers,
    Node.renumber_kind, Node.renumber_id, renumbers.graph.number_eq_root_iff]
  split <;> rfl

theorem ofAlias_renumber (renumbers : Groundwork.Renumbers number groundwork other)
    (scopes : Scopes) (node target : Node) :
    ofAlias other (scopes.renumber number) (node.renumber number) (target.renumber number) =
      ofAlias groundwork scopes node target := by
  unfold ofAlias
  rw [around_renumber renumbers, Node.renumber_id, Node.renumber_id,
    renumbers.visibility.exposedName, identifier?_renumber renumbers.graph.injective]
  rfl

section Streams

variable {aliasTargets otherTargets : List (Nat × Nat)}
  (sameTargets : ∀ id, otherTargets.lookup (number id) = (aliasTargets.lookup id).map number)

include sameTargets

theorem ofUnit_renumber (renumbers : Groundwork.Renumbers number groundwork other)
    (scopes : Scopes) (unit : ScheduledUnit) :
    ofUnit other configuration otherTargets (scopes.renumber number) (unit.renumber number) =
      ((ofUnit groundwork configuration aliasTargets scopes unit).1,
        (ofUnit groundwork configuration aliasTargets scopes unit).2.renumber number) := by
  obtain ⟨id, items⟩ := unit
  unfold ofUnit ScheduledUnit.renumber
  cases id with
  | context id =>
      simp only [UnitId.renumber]
      rw [renumbers.graph.node?_eq]
      cases groundwork.graph.node? id with
      | none => rfl
      | some node => exact ofContext_renumber renumbers scopes node items
  | typeAlias id =>
      simp only [UnitId.renumber]
      rw [renumbers.graph.node?_eq, sameTargets, renumbers.graph.bind_node?_eq]
      cases groundwork.graph.node? id with
      | none => rfl
      | some node =>
          cases (aliasTargets.lookup id).bind groundwork.graph.node? with
          | none => rfl
          | some target =>
              simp only [Option.map_some, ofAlias_renumber renumbers]
  | _ =>
      simp only [UnitId.renumber]
      rw [renumbers.graph.root_eq]
      cases groundwork.graph.node? Graph.root with
      | none => rfl
      | some root => simp only [Option.map_some, ofItems_renumber renumbers]

theorem ofUnits_renumber (renumbers : Groundwork.Renumbers number groundwork other)
    (scopes : Scopes) (units : List ScheduledUnit) :
    ofUnits other configuration otherTargets (scopes.renumber number)
        (units.map (ScheduledUnit.renumber number)) =
      ofUnits groundwork configuration aliasTargets scopes units := by
  induction units generalizing scopes with
  | nil => rfl
  | cons unit rest inductionHypothesis =>
      simp only [List.map_cons, ofUnits]
      rw [ofUnit_renumber sameTargets renumbers]
      dsimp only
      rw [inductionHypothesis]

end Streams

/-- The records say nothing of the numbers of nodes. -/
theorem ofSchedule_eq (renumbers : Groundwork.Renumbers number groundwork other)
    {schedule otherSchedule : Schedule}
    (same : Schedule.Renumbers number schedule otherSchedule) :
    ofSchedule other configuration otherSchedule =
      ofSchedule groundwork configuration schedule := by
  unfold ofSchedule
  rw [same.units]
  exact ofUnits_renumber same.aliasTargets renumbers Scopes.start schedule.units

end Registrar.Record
