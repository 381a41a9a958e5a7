import Mathlib
import Registrar.Marking.Grammar

/-!
Contract: what annotation text is derived from.

Owns: the derivations of the grammar of annotations, the tokens that one yields and the
directives that it holds, and that no two yield the same tokens.

Does not own: how a derivation is found.

A derivation holds the very tokens, with those that say nothing, so that two derivations are
one only if they agree in where every comma and parenthesis stands.
-/

set_option autoImplicit false

namespace Registrar.Marking

/-- A token of the kind. -/
@[ext]
structure Terminal (kind : TokenKind) where
  token : Token
  isKind : token.kind = kind

/-! ## Lists with commas -/

/-- The items of a list, with a comma between any two, and perhaps one at the end:
`(item ("," item)* ","?)?`. -/
inductive Listing (item : Type) where
  | empty
  | series (first : item) (more : List (Terminal .comma × item))
      (trailing : Option (Terminal .comma))

namespace Listing

variable {item : Type}

def items : Listing item → List item
  | empty => []
  | series first more _ => first :: more.map Prod.snd

/-- The tokens of the list, where it is known which ones an item yields. -/
def tokens (yield : item → List Token) : Listing item → List Token
  | empty => []
  | series first more trailing =>
      yield first ++ more.flatMap (fun next => next.1.token :: yield next.2)
        ++ (trailing.map Terminal.token).toList

/-- The list of one item without a comma. -/
def single (first : item) : Listing item := series first [] none

/-- The list with one more item and a comma in front. -/
def cons (first : item) (comma : Terminal .comma) : Listing item → Listing item
  | empty => series first [] (some comma)
  | series second more trailing => series first ((comma, second) :: more) trailing

/-- A list is empty, or one item, or one item with a comma in front of a list. -/
theorem consInduction {motive : Listing item → Prop} (empty : motive empty)
    (single : ∀ first, motive (single first))
    (cons : ∀ first comma rest, motive rest → motive (cons first comma rest))
    (listing : Listing item) : motive listing := by
  cases listing with
  | empty => exact empty
  | series first more trailing =>
      induction more generalizing first with
      | nil =>
          cases trailing with
          | none => exact single first
          | some comma => exact cons first comma .empty empty
      | cons next rest inductionHypothesis =>
          exact cons first next.1 (.series next.2 rest trailing) (inductionHypothesis next.2)

@[simp]
theorem items_empty : (empty : Listing item).items = [] := rfl

@[simp]
theorem items_single (first : item) : (single first).items = [first] := rfl

@[simp]
theorem items_cons (first : item) (comma : Terminal .comma) (rest : Listing item) :
    (cons first comma rest).items = first :: rest.items := by
  cases rest <;> rfl

variable {yield : item → List Token}

@[simp]
theorem tokens_empty : (empty : Listing item).tokens yield = [] := rfl

@[simp]
theorem tokens_single (first : item) : (single first).tokens yield = yield first := by
  simp [single, tokens]

@[simp]
theorem tokens_cons (first : item) (comma : Terminal .comma) (rest : Listing item) :
    (cons first comma rest).tokens yield = yield first ++ comma.token :: rest.tokens yield := by
  cases rest <;> simp [cons, tokens]

/-- The tokens of a list are those of its items and the commas. -/
theorem forall_mem_tokens {holds : Token → Prop}
    (ofItem : ∀ item, ∀ token ∈ yield item, holds token)
    (ofComma : ∀ comma : Terminal .comma, holds comma.token) (listing : Listing item) :
    ∀ token ∈ listing.tokens yield, holds token := by
  induction listing using consInduction with
  | empty => simp
  | single first =>
      rw [tokens_single]
      exact ofItem first
  | cons first comma rest inductionHypothesis =>
      rw [tokens_cons, List.forall_mem_append, List.forall_mem_cons]
      exact ⟨ofItem first, ofComma comma, inductionHypothesis⟩

/-! ## One list only -/

/-- What follows an item: a comma, or the token that ends the list. -/
def GoesOn (terminator : TokenKind) (rest : List Token) : Prop :=
  ∃ token tail, rest = token :: tail ∧ (token.kind = .comma ∨ token.kind = terminator)

/-- Where an item ends can be told, whatever follows. -/
structure Separable (yield : item → List Token) (terminator : TokenKind) : Prop where
  starts : ∀ item, ∃ first tail, yield item = first :: tail ∧ first.kind ≠ terminator
  unique : ∀ {left right rest others}, GoesOn terminator rest → GoesOn terminator others →
    yield left ++ rest = yield right ++ others → left = right ∧ rest = others

variable {terminator : TokenKind}

theorem goesOn_comma (comma : Terminal .comma) (rest : List Token) :
    GoesOn terminator (comma.token :: rest) :=
  ⟨_, _, rfl, .inl comma.isKind⟩

theorem goesOn_terminator {last : Token} (isLast : last.kind = terminator) (rest : List Token) :
    GoesOn terminator (last :: rest) :=
  ⟨_, _, rfl, .inr isLast⟩

/-- A list does not begin like what ends it. -/
theorem ne_terminator (separable : Separable yield terminator) {first : item}
    {tail rest : List Token} {last : Token} (isLast : last.kind = terminator) :
    last :: rest ≠ yield first ++ tail := by
  obtain ⟨token, others, isFirst, notLast⟩ := separable.starts first
  rw [isFirst]
  intro same
  exact notLast ((List.cons.inj same).1 ▸ isLast)

/-- A list is the only one that yields its tokens. -/
theorem unique (separable : Separable yield terminator) (notComma : terminator ≠ .comma)
    {left right : Listing item} {last other : Token} {rest others : List Token}
    (isLast : last.kind = terminator) (isOther : other.kind = terminator)
    (same : left.tokens yield ++ last :: rest = right.tokens yield ++ other :: others) :
    left = right ∧ last :: rest = other :: others := by
  have commaNotLast (comma : Terminal .comma) {token : Token} (isToken : token.kind = terminator)
      {tail more : List Token} : token :: tail ≠ comma.token :: more := by
    intro same
    rw [(List.cons.inj same).1, comma.isKind] at isToken
    exact notComma isToken.symm
  -- Both lists are taken apart item by item: the separable items agree, and whether the list
  -- goes on is told by the token behind the item.
  induction left using consInduction generalizing right with
  | empty =>
      cases right using consInduction with
      | empty => exact ⟨rfl, same⟩
      | single second => exact absurd same (by simpa using ne_terminator separable isLast)
      | cons second comma more =>
          exact absurd same (by simpa using ne_terminator separable isLast)
  | single first =>
      cases right using consInduction with
      | empty => exact absurd same.symm (by simpa using ne_terminator separable isOther)
      | single second =>
          rw [tokens_single, tokens_single] at same
          obtain ⟨rfl, sameRest⟩ :=
            separable.unique (goesOn_terminator isLast _) (goesOn_terminator isOther _) same
          exact ⟨rfl, sameRest⟩
      | cons second comma more =>
          rw [tokens_single, tokens_cons, List.append_assoc, List.cons_append] at same
          have sameRest :=
            (separable.unique (goesOn_terminator isLast _) (goesOn_comma comma _) same).2
          exact absurd sameRest (commaNotLast comma isLast)
  | cons first comma more inductionHypothesis =>
      cases right using consInduction with
      | empty => exact absurd same.symm (by simpa using ne_terminator separable isOther)
      | single second =>
          rw [tokens_cons, tokens_single, List.append_assoc, List.cons_append] at same
          have sameRest :=
            (separable.unique (goesOn_comma comma _) (goesOn_terminator isOther _) same).2
          exact absurd sameRest.symm (commaNotLast comma isOther)
      | cons second otherComma otherMore =>
          rw [tokens_cons, tokens_cons, List.append_assoc, List.append_assoc, List.cons_append,
            List.cons_append] at same
          obtain ⟨rfl, sameRest⟩ :=
            separable.unique (goesOn_comma comma _) (goesOn_comma otherComma _) same
          obtain ⟨sameComma, sameTail⟩ := List.cons.inj sameRest
          obtain ⟨rfl, sameEnd⟩ := inductionHypothesis sameTail
          rw [Terminal.ext sameComma]
          exact ⟨rfl, sameEnd⟩

end Listing

/-! ## Literals -/

/-- A token of the kind is the literal. -/
inductive IsLiteral : TokenKind → Literal → Prop where
  | string (value : String) : IsLiteral (.string value) (.string value)
  | unsigned (value : Nat) : IsLiteral (.unsigned value) (.unsigned value)
  | yes : IsLiteral .keywordTrue (.boolean true)
  | no : IsLiteral .keywordFalse (.boolean false)
  | default : IsLiteral .keywordDefault .default
  | identifier (name : String) : IsLiteral (.identifier name) (.identifier name)

theorem IsLiteral.unique {kind : TokenKind} {left right : Literal} (isLeft : IsLiteral kind left)
    (isRight : IsLiteral kind right) : left = right := by
  cases isLeft <;> cases isRight <;> rfl

structure LiteralPhrase where
  token : Token
  literal : Literal
  isLiteral : IsLiteral token.kind literal

namespace LiteralPhrase

def tokens (phrase : LiteralPhrase) : List Token := [phrase.token]

theorem separable : Listing.Separable tokens .closing := by
  constructor
  · rintro ⟨token, literal, isLiteral⟩
    refine ⟨token, [], rfl, fun isClosing => ?_⟩
    rw [isClosing] at isLiteral
    cases isLiteral
  · rintro ⟨token, left, isLeft⟩ ⟨other, right, isRight⟩ rest others _ _ same
    obtain ⟨rfl, sameRest⟩ := List.cons.inj same
    obtain rfl := isLeft.unique isRight
    exact ⟨rfl, sameRest⟩

end LiteralPhrase

/-! ## Directives -/

/-- What stands in parentheses behind the name of a directive. -/
structure Arguments where
  opening : Terminal .opening
  listing : Listing LiteralPhrase
  closing : Terminal .closing

namespace Arguments

def tokens (arguments : Arguments) : List Token :=
  arguments.opening.token
    :: (arguments.listing.tokens LiteralPhrase.tokens ++ [arguments.closing.token])

def literals (arguments : Arguments) : List Literal :=
  arguments.listing.items.map LiteralPhrase.literal

theorem unique {left right : Arguments} {rest others : List Token}
    (same : left.tokens ++ rest = right.tokens ++ others) : left = right ∧ rest = others := by
  obtain ⟨opening, listing, closing⟩ := left
  obtain ⟨otherOpening, otherListing, otherClosing⟩ := right
  simp only [tokens, List.cons_append, List.append_assoc, List.cons.injEq] at same
  obtain ⟨rfl, sameEnd⟩ := Listing.unique LiteralPhrase.separable (by simp) closing.isKind
    otherClosing.isKind same.2
  obtain ⟨sameClosing, sameRest⟩ := List.cons.inj sameEnd
  rw [Terminal.ext same.1, Terminal.ext sameClosing]
  exact ⟨rfl, sameRest⟩

end Arguments

/-- The name of a directive, perhaps with arguments:
`IDENTIFIER ("(" (literal ("," literal)* ","?)? ")")?`. -/
structure CallPhrase where
  name : String
  identifier : Terminal (.identifier name)
  arguments : Option Arguments

namespace CallPhrase

def tokens (phrase : CallPhrase) : List Token :=
  phrase.identifier.token :: (phrase.arguments.map Arguments.tokens).getD []

/-- The directive as it is written. -/
def call (phrase : CallPhrase) : Call where
  name := phrase.name
  arguments := (phrase.arguments.map Arguments.literals).getD []
  column := phrase.identifier.token.column

theorem goesOn_ne_opening {rest tail : List Token} (goesOn : Listing.GoesOn .endOfInput rest)
    (opening : Terminal .opening) : rest ≠ opening.token :: tail := by
  rintro rfl
  obtain ⟨token, others, same, isKind⟩ := goesOn
  rw [← (List.cons.inj same).1, opening.isKind] at isKind
  rcases isKind with isComma | isEnd
  · cases isComma
  · cases isEnd

theorem separable : Listing.Separable tokens .endOfInput := by
  constructor
  · rintro ⟨name, identifier, arguments⟩
    refine ⟨_, _, rfl, ?_⟩
    rw [identifier.isKind]
    exact TokenKind.noConfusion
  · rintro ⟨name, identifier, arguments⟩ ⟨otherName, otherIdentifier, otherArguments⟩ rest others
      goesOn otherGoesOn same
    obtain ⟨sameToken, sameTail⟩ := List.cons.inj same
    obtain rfl : name = otherName := by
      have sameKind := identifier.isKind.symm.trans
        ((congrArg Token.kind sameToken).trans otherIdentifier.isKind)
      exact TokenKind.identifier.inj sameKind
    obtain rfl := Terminal.ext sameToken
    cases arguments with
    | none =>
        cases otherArguments with
        | none => exact ⟨rfl, sameTail⟩
        | some right => exact absurd sameTail (goesOn_ne_opening goesOn right.opening)
    | some left =>
        cases otherArguments with
        | none => exact absurd sameTail.symm (goesOn_ne_opening otherGoesOn left.opening)
        | some right =>
            obtain ⟨rfl, sameRest⟩ := Arguments.unique sameTail
            exact ⟨rfl, sameRest⟩

/-- What is derived as a directive holds no end of input. -/
theorem kind_ne (phrase : CallPhrase) : ∀ token ∈ phrase.tokens, token.kind ≠ .endOfInput := by
  have ofLiteral (literal : LiteralPhrase) :
      ∀ token ∈ literal.tokens, token.kind ≠ .endOfInput := by
    obtain ⟨token, literal, isLiteral⟩ := literal
    rw [LiteralPhrase.tokens, List.forall_mem_singleton]
    intro isEnd
    rw [isEnd] at isLiteral
    cases isLiteral
  obtain ⟨name, identifier, arguments⟩ := phrase
  rw [tokens, List.forall_mem_cons]
  refine ⟨by simp [identifier.isKind], ?_⟩
  cases arguments with
  | none => simp
  | some arguments =>
      rw [Option.map_some, Option.getD_some, Arguments.tokens, List.forall_mem_cons,
        List.forall_mem_append, List.forall_mem_singleton]
      exact ⟨by simp [arguments.opening.isKind],
        Listing.forall_mem_tokens ofLiteral (fun comma => by simp [comma.isKind]) _,
        by simp [arguments.closing.isKind]⟩

end CallPhrase

/-! ## Annotations -/

/-- The derivation of an annotation: `(directive ("," directive)* ","?)?`. -/
abbrev Derivation := Listing CallPhrase

namespace Derivation

def tokens (derivation : Derivation) : List Token := Listing.tokens CallPhrase.tokens derivation

/-- The directives in order. -/
def calls (derivation : Derivation) : List Call := derivation.items.map CallPhrase.call

theorem unique {left right : Derivation} {last other : Token} (isLast : last.kind = .endOfInput)
    (isOther : other.kind = .endOfInput) (same : left.tokens ++ [last] = right.tokens ++ [other]) :
    left = right :=
  (Listing.unique CallPhrase.separable (by simp) isLast isOther same).1

end Derivation

end Registrar.Marking
