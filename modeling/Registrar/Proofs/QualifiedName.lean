import Mathlib
import Registrar.QualifiedName

/-!
Contract: which names a pattern refers to, told by components.

Owns: that a pattern refers to a name just if its components are the last ones of the name, and if
it is absolute, all of them.

Does not own: what names are written where, and what is done with what a pattern refers to.

Texts are compared from the end. There a component ends at the last colon, so that no component of
a pattern can match a part of one of the name.
-/

set_option autoImplicit false

namespace Registrar.QualifiedName

/-! ## Components -/

/-- The components of a qualified name. -/
structure AreComponents (components : List String) : Prop where
  nonempty : components ≠ []
  named : ∀ component ∈ components, component ≠ ""
  noColon : ∀ component ∈ components, ':' ∉ component.toList

/-- The name with these components. -/
def joined (components : List String) : String := "::".intercalate components

/-- The name with a separator before each component. -/
def absolute (components : List String) : List Char :=
  components.flatMap fun component => separator ++ component.toList

theorem absolute_concat (components : List String) (last : String) :
    absolute (components ++ [last]) = absolute components ++ [':'] ++ ':' :: last.toList := by
  simp [absolute, separator]

theorem separator_append_joined {components : List String} (nonempty : components ≠ []) :
    separator ++ (joined components).toList = absolute components := by
  rw [joined, String.toList_intercalate]
  induction components with
  | nil => exact absurd rfl nonempty
  | cons first rest inductionHypothesis =>
      cases rest with
      | nil => simp [absolute]
      | cons second others =>
          have isRest := inductionHypothesis (List.cons_ne_nil _ _)
          rw [List.map_cons] at isRest
          rw [List.map_cons, List.map_cons, List.intercalate_cons_cons, absolute,
            List.flatMap_cons, ← absolute, ← isRest, List.append_assoc, List.append_assoc]
          rfl

/-- The name starts with a character of its first component. -/
def StartsPlain (name : String) : Prop :=
  ∃ first rest, name.toList = first :: rest ∧ first ≠ ':'

theorem AreComponents.startsPlain {components : List String}
    (areComponents : AreComponents components) : StartsPlain (joined components) := by
  cases components with
  | nil => exact absurd rfl areComponents.nonempty
  | cons component others =>
      have isNamed := areComponents.named component List.mem_cons_self
      have noColon := areComponents.noColon component List.mem_cons_self
      cases characters : component.toList with
      | nil => exact absurd (String.toList_eq_nil_iff.mp characters) isNamed
      | cons first rest =>
          rw [characters, List.mem_cons, not_or] at noColon
          rw [StartsPlain, joined, String.toList_intercalate, List.map_cons, characters]
          cases others with
          | nil => exact ⟨first, rest, List.intercalate_singleton, Ne.symm noColon.1⟩
          | cons second others =>
              rw [List.map_cons, List.intercalate_cons_cons]
              exact ⟨first, _, rfl, Ne.symm noColon.1⟩

/-! ## From the end -/

/-- What follows the last colon of a text is told by the text. -/
theorem append_colon_inj {left right leftLast rightLast : List Char} (leftPlain : ':' ∉ leftLast)
    (rightPlain : ':' ∉ rightLast) (same : left ++ ':' :: leftLast = right ++ ':' :: rightLast) :
    left = right ∧ leftLast = rightLast := by
  rcases List.append_eq_append_iff.mp same with ⟨between, rfl, isLast⟩ | ⟨between, rfl, isLast⟩
  · cases between with
    | nil => exact ⟨(List.append_nil left).symm, (List.cons.inj isLast).2⟩
    | cons _ others =>
        rw [(List.cons.inj isLast).2] at leftPlain
        exact absurd (List.mem_append_right others List.mem_cons_self) leftPlain
  · cases between with
    | nil => exact ⟨List.append_nil right, (List.cons.inj isLast).2.symm⟩
    | cons _ others =>
        rw [(List.cons.inj isLast).2] at rightPlain
        exact absurd (List.mem_append_right others List.mem_cons_self) rightPlain

/-- With a separator before each component, texts end alike just as components do. -/
theorem absolute_isSuffix_iff {pattern name : List String}
    (patternPlain : ∀ component ∈ pattern, ':' ∉ component.toList)
    (namePlain : ∀ component ∈ name, ':' ∉ component.toList) :
    absolute pattern <:+ absolute name ↔ pattern <:+ name := by
  constructor
  · intro endsAlike
    -- The last component is the same, and what is before it ends alike again.
    induction pattern using List.reverseRecOn generalizing name with
    | nil => exact List.nil_suffix
    | append_singleton pattern last inductionHypothesis =>
        rw [absolute_concat] at endsAlike
        rcases List.eq_nil_or_concat' name with rfl | ⟨before, nameLast, rfl⟩
        · simp [absolute] at endsAlike
        · rw [absolute_concat] at endsAlike
          simp only [List.forall_mem_append, List.forall_mem_singleton] at patternPlain namePlain
          obtain ⟨front, same⟩ := endsAlike
          rw [← List.append_assoc] at same
          obtain ⟨sameBefore, sameLast⟩ := append_colon_inj patternPlain.2 namePlain.2 same
          rw [← List.append_assoc, List.append_left_inj] at sameBefore
          obtain ⟨others, rfl⟩ := inductionHypothesis patternPlain.1 namePlain.1 ⟨front, sameBefore⟩
          rw [String.toList_inj.mp sameLast, List.append_assoc]
          exact List.suffix_append others _
  · rintro ⟨others, rfl⟩
    exact ⟨absolute others, List.flatMap_append.symm⟩

theorem AreComponents.joined_isSuffix_iff {pattern name : List String}
    (arePattern : AreComponents pattern) (areName : AreComponents name) :
    separator ++ (joined pattern).toList <:+ separator ++ (joined name).toList ↔
      pattern <:+ name := by
  rw [separator_append_joined arePattern.nonempty, separator_append_joined areName.nonempty]
  exact absolute_isSuffix_iff arePattern.noColon areName.noColon

/-- A name tells its components. -/
theorem AreComponents.joined_inj {left right : List String} (areLeft : AreComponents left)
    (areRight : AreComponents right) : joined left = joined right ↔ left = right := by
  refine ⟨fun same => ?_, congrArg joined⟩
  have leftEnds := (areLeft.joined_isSuffix_iff areRight).mp (by rw [same])
  have rightEnds := (areRight.joined_isSuffix_iff areLeft).mp (by rw [same])
  exact leftEnds.eq_of_length_le rightEnds.length_le

/-! ## Patterns -/

theorem StartsPlain.dropLeadingSeparator_eq {name : String} (plain : StartsPlain name) :
    dropLeadingSeparator name.toList = name.toList := by
  obtain ⟨first, rest, isName, notColon⟩ := plain
  rw [isName]
  unfold dropLeadingSeparator
  split
  · rename_i isAbsolute
    exact absurd (List.cons.inj isAbsolute).1 notColon
  · rfl

theorem toList_absolute (name : String) : ("::" ++ name).toList = separator ++ name.toList := by
  rw [String.toList_append]
  rfl

theorem StartsPlain.refersTo_absolute_eq {name : String} (plain : StartsPlain name)
    (pattern : String) :
    refersTo pattern ("::" ++ name) = refersTo pattern name := by
  have dropped : dropLeadingSeparator ("::" ++ name).toList = dropLeadingSeparator name.toList := by
    rw [toList_absolute, plain.dropLeadingSeparator_eq]
    rfl
  rw [refersTo, refersTo, refersToChars, refersToChars, dropped]

theorem StartsPlain.refersTo_absolute_iff {name : String} (plain : StartsPlain name)
    (pattern : String) : refersTo ("::" ++ pattern) name = true ↔ pattern = name := by
  rw [refersTo, refersToChars, toList_absolute, plain.dropLeadingSeparator_eq,
    if_pos (List.isPrefixOf_iff_prefix.mpr (List.prefix_append _ _)), beq_iff_eq]
  exact String.toList_inj

/-- A pattern that is not absolute refers to a name that ends with it after a separator, where the
name counts as having one at its start. -/
theorem StartsPlain.refersTo_iff {pattern name : String} (patternPlain : StartsPlain pattern)
    (namePlain : StartsPlain name) :
    refersTo pattern name = true ↔
      separator ++ pattern.toList <:+ separator ++ name.toList := by
  have notAbsolute : ¬ separator.isPrefixOf pattern.toList = true := by
    obtain ⟨first, rest, isPattern, notColon⟩ := patternPlain
    simp [isPattern, separator, Ne.symm notColon]
  have notShifted : separator ++ pattern.toList ≠ ':' :: name.toList := by
    obtain ⟨first, rest, isName, notColon⟩ := namePlain
    rw [isName]
    intro shifted
    exact notColon (List.cons.inj (List.cons.inj shifted).2).1.symm
  rw [refersTo, refersToChars, namePlain.dropLeadingSeparator_eq, if_neg notAbsolute,
    Bool.or_eq_true, beq_iff_eq, List.isSuffixOf_iff_suffix]
  change _ ↔ separator ++ pattern.toList <:+ ':' :: ':' :: name.toList
  rw [List.suffix_cons_iff, List.suffix_cons_iff, or_iff_right notShifted]
  exact or_congr_left (List.append_right_inj separator).symm

/-- Of names with these components, the pattern refers to the name just if its components are the
last ones of the name, and the absolute pattern just if they are the same. Whether the name is
absolute does not matter to any pattern. -/
structure RefersByComponents (pattern name : List String) : Prop where
  relative : refersTo (joined pattern) (joined name) = true ↔ pattern <:+ name
  absolute : refersTo ("::" ++ joined pattern) (joined name) = true ↔ pattern = name
  ofAbsolute : ∀ text, refersTo text ("::" ++ joined name) = refersTo text (joined name)

theorem refersTo_byComponents {pattern name : List String} (arePattern : AreComponents pattern)
    (areName : AreComponents name) : RefersByComponents pattern name := by
  have namePlain := areName.startsPlain
  refine ⟨?_, ?_, namePlain.refersTo_absolute_eq⟩
  · rw [arePattern.startsPlain.refersTo_iff namePlain]
    exact arePattern.joined_isSuffix_iff areName
  · rw [namePlain.refersTo_absolute_iff]
    exact arePattern.joined_inj areName

instance (components : List String) : Decidable (AreComponents components) :=
  decidable_of_iff
    (components ≠ [] ∧ (∀ component ∈ components, component ≠ "") ∧
      ∀ component ∈ components, ':' ∉ component.toList)
    ⟨fun holds => ⟨holds.1, holds.2.1, holds.2.2⟩,
      fun holds => ⟨holds.nonempty, holds.named, holds.noColon⟩⟩

/-- A pattern of two components refers to a name that ends with them, and not to one of which the
text alone ends with it. -/
theorem nestedBase_refersByComponents :
    AreComponents ["nested", "Base"] ∧ AreComponents ["ns", "nested", "Base"] ∧
      AreComponents ["ns", "unnested", "Base"] ∧
      refersTo "nested::Base" "::ns::nested::Base" = true ∧
      refersTo "nested::Base" "ns::unnested::Base" = false ∧
      refersTo "::nested::Base" "ns::nested::Base" = false := by
  have arePattern : AreComponents ["nested", "Base"] := by decide +kernel
  have areNested : AreComponents ["ns", "nested", "Base"] := by decide +kernel
  have areUnnested : AreComponents ["ns", "unnested", "Base"] := by decide +kernel
  have nested := refersTo_byComponents arePattern areNested
  have unnested := refersTo_byComponents arePattern areUnnested
  refine ⟨arePattern, areNested, areUnnested, ?_, ?_, ?_⟩
  · exact (nested.ofAbsolute _).trans (nested.relative.mpr (by decide))
  · exact Bool.eq_false_iff.mpr fun refers => absurd (unnested.relative.mp refers) (by decide)
  · exact Bool.eq_false_iff.mpr fun refers => absurd (nested.absolute.mp refers) (by decide)

end Registrar.QualifiedName
