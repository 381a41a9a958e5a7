import Mathlib
import Registrar.Proofs.Marking.Derivation

/-!
Contract: which texts are annotations.

Owns: that the tokens of a text end with the only end of input, that a text is parsed just
if its tokens are derived, into the directives of the one derivation, and how it fails else.

Does not own: which directives exist.
-/

set_option autoImplicit false

namespace Registrar.Marking

/-! ## Tokens -/

theorem kind_readString_ne (value characters : List Char) :
    (readString value characters).kind ≠ .endOfInput := by
  fun_induction readString value characters with
  | case4 _ _ _ _ _ inductionHypothesis => exact inductionHypothesis
  | case6 _ _ _ _ _ _ inductionHypothesis => exact inductionHypothesis
  | _ => exact TokenKind.noConfusion

theorem kind_readToken_ne (first : Char) (rest : List Char) :
    (readToken first rest).kind ≠ .endOfInput := by
  have ofNumber (characters : List Char) : numberKind characters ≠ .endOfInput := by
    unfold numberKind
    split <;> exact TokenKind.noConfusion
  have ofName (characters : List Char) : nameKind characters ≠ .endOfInput := by
    unfold nameKind
    split <;> exact TokenKind.noConfusion
  unfold readToken
  split
  · exact TokenKind.noConfusion
  split
  · exact TokenKind.noConfusion
  split
  · exact TokenKind.noConfusion
  split
  · exact kind_readString_ne [] rest
  split
  · dsimp only
    split
    · exact ofNumber _
    · exact ofName _
  · exact TokenKind.noConfusion

/-- The last token is the end of input, and no other is. -/
inductive Ended : List Token → Prop where
  | last {token : Token} (isEnd : token.kind = .endOfInput) : Ended [token]
  | cons {token : Token} {rest : List Token} (notEnd : token.kind ≠ .endOfInput)
      (ended : Ended rest) : Ended (token :: rest)

theorem Ended.tail {token : Token} {rest : List Token} (ended : Ended (token :: rest))
    (notEnd : token.kind ≠ .endOfInput) : Ended rest := by
  cases ended with
  | last isEnd => exact absurd isEnd notEnd
  | cons _ ended => exact ended

theorem Ended.of_append {front rest : List Token} (ended : Ended (front ++ rest))
    (noEnd : ∀ token ∈ front, token.kind ≠ .endOfInput) : Ended rest := by
  induction front with
  | nil => exact ended
  | cons token front inductionHypothesis =>
      obtain ⟨notEnd, restNoEnd⟩ := List.forall_mem_cons.mp noEnd
      exact inductionHypothesis (ended.tail notEnd) restNoEnd

theorem tokensFrom_ended (start column : Nat) (characters : List Char) :
    Ended (tokensFrom start column characters) := by
  fun_induction tokensFrom start column characters with
  | case1 => exact .last rfl
  | case2 =>
      rename_i first rest _ _ inductionHypothesis
      exact .cons (kind_readToken_ne first rest) inductionHypothesis

theorem tokens_ended (text : String) : Ended (tokens text) := tokensFrom_ended 0 1 text.toList

/-! ## Literals and arguments -/

theorem literal?_eq_some_iff {kind : TokenKind} {literal : Literal} :
    kind.literal? = some literal ↔ IsLiteral kind literal := by
  constructor
  · intro isLiteral
    cases kind <;> simp only [TokenKind.literal?, Option.some.injEq, reduceCtorEq] at isLiteral
    all_goals
      subst isLiteral
      constructor
  · intro isLiteral
    cases isLiteral <;> rfl

theorem parseArguments_sound {directive : String} {input remaining : List Token}
    {literals : List Literal}
    (parsed : parseArguments directive input = .ok (literals, remaining)) :
    ∃ (listing : Listing LiteralPhrase) (closing : Terminal .closing),
      input = listing.tokens LiteralPhrase.tokens ++ closing.token :: remaining ∧
        listing.items.map LiteralPhrase.literal = literals := by
  fun_induction parseArguments directive input generalizing literals remaining with
  | case1 => cases parsed
  | case2 =>
      rename_i isClosing
      cases parsed
      exact ⟨.empty, ⟨_, isClosing⟩, rfl, rfl⟩
  | case3 => cases parsed
  | case4 => cases parsed
  | case5 => cases parsed
  | case6 =>
      rename_i token literal comma others isComma _ _ inner _ _ isLiteral inductionHypothesis
      cases parsed
      obtain ⟨listing, closing, rfl, rfl⟩ := inductionHypothesis inner
      exact ⟨.cons ⟨token, literal, literal?_eq_some_iff.mp isLiteral⟩ ⟨comma, isComma⟩ listing,
        closing, by simp [LiteralPhrase.tokens], by simp⟩
  | case7 => cases parsed
  | case8 =>
      rename_i token literal closing others isClosing _ _ isLiteral
      cases parsed
      exact ⟨.single ⟨token, literal, literal?_eq_some_iff.mp isLiteral⟩, ⟨closing, isClosing⟩,
        by simp [LiteralPhrase.tokens], by simp⟩
  | case9 => cases parsed
  | case10 => cases parsed

theorem parseArguments_complete (directive : String) (listing : Listing LiteralPhrase)
    (closing : Terminal .closing) (remaining : List Token) :
    parseArguments directive
        (listing.tokens LiteralPhrase.tokens ++ closing.token :: remaining) =
      .ok (listing.items.map LiteralPhrase.literal, remaining) := by
  induction listing using Listing.consInduction with
  | empty => simp [parseArguments, closing.isKind]
  | single phrase =>
      obtain ⟨⟨kind, start, column⟩, literal, isLiteral⟩ := phrase
      cases isLiteral <;>
        simp [LiteralPhrase.tokens, parseArguments, TokenKind.literal?, closing.isKind]
  | cons phrase comma rest inductionHypothesis =>
      obtain ⟨⟨kind, start, column⟩, literal, isLiteral⟩ := phrase
      cases isLiteral <;>
        simp [LiteralPhrase.tokens, parseArguments, TokenKind.literal?, comma.isKind,
          inductionHypothesis]

/-! ## Directives -/

theorem parseCall_sound {first : Token} {rest remaining : List Token} {call : Call}
    (parsed : parseCall first rest = .ok (call, remaining)) :
    ∃ phrase : CallPhrase, first :: rest = phrase.tokens ++ remaining ∧ phrase.call = call := by
  unfold parseCall at parsed
  split at parsed
  · rename_i name isName
    split at parsed
    · rename_i start column others
      split at parsed
      · rename_i literals after inner
        cases parsed
        obtain ⟨listing, closing, rfl, rfl⟩ := parseArguments_sound inner
        let opening : Terminal .opening := ⟨⟨.opening, start, column⟩, rfl⟩
        refine ⟨⟨name, ⟨first, isName⟩, some ⟨opening, listing, closing⟩⟩, ?_, rfl⟩
        simp [CallPhrase.tokens, Arguments.tokens, opening]
      · cases parsed
    · cases parsed
      exact ⟨⟨name, ⟨first, isName⟩, none⟩, rfl, rfl⟩
  · cases parsed

/-- A directive is parsed where it ends as directives do. -/
theorem parseCall_complete (phrase : CallPhrase) {remaining : List Token}
    (goesOn : Listing.GoesOn .endOfInput remaining) :
    ∃ rest, phrase.tokens ++ remaining = phrase.identifier.token :: rest ∧
      parseCall phrase.identifier.token rest = .ok (phrase.call, remaining) := by
  obtain ⟨name, identifier, arguments⟩ := phrase
  refine ⟨_, List.cons_append, ?_⟩
  unfold parseCall
  rw [identifier.isKind]
  cases arguments with
  | none =>
      simp only [Option.map_none, Option.getD_none, List.nil_append]
      split
      · rename_i start column others
        exact absurd rfl (CallPhrase.goesOn_ne_opening goesOn ⟨⟨.opening, start, column⟩, rfl⟩)
      · rfl
  | some arguments =>
      obtain ⟨⟨⟨kind, start, column⟩, isOpening⟩, listing, closing⟩ := arguments
      obtain rfl : kind = .opening := isOpening
      simp only [Option.map_some, Option.getD_some, Arguments.tokens, List.cons_append,
        List.append_assoc, List.nil_append, parseArguments_complete]
      rfl

/-! ## Annotations -/

theorem parseCalls_sound {input : List Token} {calls : List Call} (ended : Ended input)
    (parsed : parseCalls input = .ok calls) :
    ∃ (derivation : Derivation) (last : Token), last.kind = .endOfInput ∧
      input = derivation.tokens ++ [last] ∧ derivation.calls = calls := by
  -- A directive holds no end of input, so what remains behind it still ends with the only one.
  have onwards {first : Token} {rest remaining : List Token} {call : Call}
      (ended : Ended (first :: rest)) (isCall : parseCall first rest = .ok (call, remaining)) :
      ∃ phrase : CallPhrase, first :: rest = phrase.tokens ++ remaining ∧ phrase.call = call ∧
        Ended remaining := by
    obtain ⟨phrase, isSplit, sameCall⟩ := parseCall_sound isCall
    rw [isSplit] at ended
    exact ⟨phrase, isSplit, sameCall, ended.of_append phrase.kind_ne⟩
  fun_induction parseCalls input generalizing calls with
  | case1 => cases ended
  | case2 token rest isEnd =>
      cases parsed
      cases ended with
      | last _ => exact ⟨.empty, token, isEnd, rfl, rfl⟩
      | cons notEnd _ => exact absurd isEnd notEnd
  | case3 => cases parsed
  | case4 first rest call isCall =>
      obtain ⟨_, _, _, ended⟩ := onwards ended isCall
      cases ended
  | case5 first rest call comma others isCall isComma inner innerParsed =>
      rename_i inductionHypothesis
      cases parsed
      obtain ⟨phrase, isSplit, rfl, ended⟩ := onwards ended isCall
      obtain ⟨derivation, last, isEnd, rfl, rfl⟩ :=
        inductionHypothesis (ended.tail (by simp [isComma])) innerParsed
      refine ⟨.cons phrase ⟨comma, isComma⟩ derivation, last, isEnd, ?_, ?_⟩
      · rw [isSplit]
        simp [Derivation.tokens]
      · simp [Derivation.calls]
  | case6 => cases parsed
  | case7 first rest call following others isCall isEnd =>
      cases parsed
      obtain ⟨phrase, isSplit, rfl, ended⟩ := onwards ended isCall
      cases ended with
      | last _ =>
          refine ⟨.single phrase, following, isEnd, ?_, ?_⟩
          · rw [isSplit]
            simp [Derivation.tokens]
          · simp [Derivation.calls]
      | cons notEnd _ => exact absurd isEnd notEnd
  | case8 => cases parsed

section Steps

variable {first following : Token} {rest others : List Token} {call : Call}
  (notEnd : first.kind ≠ .endOfInput)
  (parsed : parseCall first rest = .ok (call, following :: others))

include notEnd parsed

theorem parseCalls_last (isEnd : following.kind = .endOfInput) :
    parseCalls (first :: rest) = .ok [call] := by
  rw [parseCalls]
  split
  · exact absurd ‹_› notEnd
  · split
    · rename_i failed
      cases parsed.symm.trans failed
    · rename_i isParsed
      cases parsed.symm.trans isParsed
      simp [isEnd]

theorem parseCalls_comma (isComma : following.kind = .comma) {calls : List Call}
    (more : parseCalls others = .ok calls) : parseCalls (first :: rest) = .ok (call :: calls) := by
  rw [parseCalls]
  split
  · exact absurd ‹_› notEnd
  · split
    · rename_i failed
      cases parsed.symm.trans failed
    · rename_i isParsed
      cases parsed.symm.trans isParsed
      simp [isComma, more]

end Steps

theorem parseCalls_complete (derivation : Derivation) {last : Token}
    (isEnd : last.kind = .endOfInput) :
    parseCalls (derivation.tokens ++ [last]) = .ok derivation.calls := by
  unfold Derivation.tokens Derivation.calls
  induction derivation using Listing.consInduction with
  | empty =>
      rw [Listing.tokens_empty, List.nil_append, parseCalls]
      simp [isEnd]
  | single phrase =>
      obtain ⟨rest, isSplit, parsed⟩ :=
        parseCall_complete phrase (Listing.goesOn_terminator isEnd [])
      rw [Listing.tokens_single, isSplit,
        parseCalls_last (by simp [phrase.identifier.isKind]) parsed isEnd]
      rfl
  | cons phrase comma rest inductionHypothesis =>
      obtain ⟨others, isSplit, parsed⟩ :=
        parseCall_complete phrase (Listing.goesOn_comma comma
          (Listing.tokens CallPhrase.tokens rest ++ [last]))
      rw [Listing.tokens_cons, List.append_assoc, List.cons_append, isSplit,
        parseCalls_comma (by simp [phrase.identifier.isKind]) parsed comma.isKind
          inductionHypothesis, Listing.items_cons, List.map_cons]

/-! ## Errors -/

/-- The fault is that a token stands where it cannot, or that a parenthesis is not closed. -/
def IsMalformed (cause : Cause) : Prop :=
  (∃ message column, cause = .invalidToken message column) ∨
    ∃ directive, cause = .missingClosingParenthesis directive

theorem isMalformed_unexpected (token : Token) : IsMalformed (unexpected token) := by
  unfold unexpected
  split <;> exact .inl ⟨_, _, rfl⟩

theorem parseArguments_error {directive : String} {input : List Token} {cause : Cause}
    (failed : parseArguments directive input = .error cause) : IsMalformed cause := by
  fun_induction parseArguments directive input with
  | case1 | case3 | case5 | case9 =>
      cases failed
      exact .inr ⟨directive, rfl⟩
  | case2 | case6 | case8 => cases failed
  | case4 | case10 =>
      cases failed
      exact isMalformed_unexpected _
  | case7 =>
      rename_i inner _ _ _ inductionHypothesis
      cases failed
      exact inductionHypothesis inner

theorem parseCall_error {first : Token} {rest : List Token} {cause : Cause}
    (failed : parseCall first rest = .error cause) : IsMalformed cause := by
  unfold parseCall at failed
  split at failed
  · split at failed
    · split at failed
      · cases failed
      · rename_i inner
        cases failed
        exact parseArguments_error inner
    · cases failed
  · cases failed
    exact isMalformed_unexpected first

theorem parseCalls_error {input : List Token} {cause : Cause}
    (failed : parseCalls input = .error cause) : IsMalformed cause := by
  fun_induction parseCalls input with
  | case1 | case2 | case4 | case5 | case7 => cases failed
  | case3 =>
      rename_i isCall _
      cases failed
      exact parseCall_error isCall
  | case6 =>
      rename_i inner _ _ inductionHypothesis
      cases failed
      exact inductionHypothesis inner
  | case8 =>
      cases failed
      exact isMalformed_unexpected _

/-! ## Texts -/

/-- The tokens of the text are derived like this. -/
def Derives (text : String) (derivation : Derivation) : Prop :=
  ∃ last, last.kind = .endOfInput ∧ tokens text = derivation.tokens ++ [last]

/-- The text is parsed exactly if its tokens can be derived, which they can in one way at most,
and into the directives that are derived. Otherwise it is told to be malformed. -/
structure ParsesAsDerived (text : String) : Prop where
  accepts_iff : ∀ calls, parse text = .ok calls ↔
    ∃ derivation, Derives text derivation ∧ derivation.calls = calls
  unique : ∀ left right, Derives text left → Derives text right → left = right
  rejects : (¬ ∃ derivation, Derives text derivation) →
    ∃ cause, parse text = .error cause ∧ IsMalformed cause

theorem parse_parsesAsDerived (text : String) : ParsesAsDerived text := by
  have accepts_iff (calls : List Call) : parse text = .ok calls ↔
      ∃ derivation, Derives text derivation ∧ derivation.calls = calls := by
    constructor
    · intro parsed
      obtain ⟨derivation, last, isEnd, isSplit, sameCalls⟩ :=
        parseCalls_sound (tokens_ended text) parsed
      exact ⟨derivation, ⟨last, isEnd, isSplit⟩, sameCalls⟩
    · rintro ⟨derivation, ⟨last, isEnd, isSplit⟩, rfl⟩
      rw [parse, isSplit]
      exact parseCalls_complete derivation isEnd
  refine ⟨accepts_iff, ?_, ?_⟩
  · rintro left right ⟨last, isLast, isLeft⟩ ⟨other, isOther, isRight⟩
    exact Derivation.unique isLast isOther (isLeft.symm.trans isRight)
  · intro notDerived
    cases parsed : parse text with
    | error cause => exact ⟨cause, rfl, parseCalls_error parsed⟩
    | ok calls =>
        obtain ⟨derivation, derives, _⟩ := (accepts_iff calls).mp parsed
        exact absurd ⟨derivation, derives⟩ notDerived

end Registrar.Marking
