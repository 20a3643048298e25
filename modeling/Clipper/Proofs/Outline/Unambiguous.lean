import Clipper.Grammar.Program
import Clipper.Proofs.Grammar.StatementPasses
import Clipper.Proofs.Lexeme.TokenAlone
import Clipper.Proofs.Outline.StatementLines

/-!
# Outlines are unambiguous

A name or a number that is cut off from a text holds no character that stands
between the words of an outline, and a program is made from tokens of its text,
whatever is reported. So two texts whose programs have the same outline have the
same program up to places.

What is legible is what the program was made from: every name in it was the
lexeme of a token, and a scanner makes such lexemes of the characters of
words.  Placeholders are legible by their own spelling.  Reports are left out
of the statement, because two texts may well have one outline and different
errors.
-/

namespace Clipper

open Grammar Outline
open Relabelled (relabel)

/-! ## Words of a text -/

namespace Lexeme

open Clipper.Source

/-- A part of a name is a character of words. -/
theorem isWordCharacter_of_namePart
    {character : Char}
    (part : isNamePart character = true) :
    isWordCharacter character = true := by
  by_contra other
  rw [isWordCharacter, Bool.not_eq_true', Bool.not_eq_false,
    List.contains_iff_mem] at other
  have apart :
      ['(', ')', '[', ']', ',', ' ', '"', '\n'].all
        (fun character => !isNamePart character) = true := rfl
  have outside := List.all_eq_true.mp apart character other
  rw [part] at outside
  cases outside

theorem isWordCharacter_of_digit
    {character : Char}
    (digit : character.isDigit = true) :
    isWordCharacter character = true := by
  refine isWordCharacter_of_namePart ?_
  by_contra other
  rw [isDigit_of_not_isNamePart (Bool.eq_false_iff.mpr other)] at digit
  cases digit

/-- The lexeme of a number is a word. -/
theorem isWord_numberPiece
    {first : Char}
    (digit : first.isDigit = true)
    (rest : List Char)
    {kind : TokenKind}
    {lexeme : String}
    (isToken : (numberPiece first rest).content = .token kind lexeme) :
    IsWord lexeme.toList := by
  have digits (text : List Char) :
      ∀ character ∈ text.takeWhile Char.isDigit,
        isWordCharacter character = true :=
    fun _ member => isWordCharacter_of_digit (List.mem_takeWhile_imp member)
  cases isToken
  rw [String.toList_ofList]
  refine ⟨List.cons_ne_nil _ _,
    List.forall_mem_cons.mpr ⟨isWordCharacter_of_digit digit, ?_⟩⟩
  refine List.forall_mem_append.mpr ⟨digits rest, ?_⟩
  split
  · exact List.forall_mem_cons.mpr ⟨by decide, digits _⟩
  · exact List.forall_mem_nil _

/-- The lexeme of a name is a word. -/
theorem isWord_namePiece
    {first : Char}
    (starts : isNameStart first = true)
    (rest : List Char)
    {kind : TokenKind}
    {lexeme : String}
    (isToken : (namePiece first rest).content = .token kind lexeme) :
    IsWord lexeme.toList := by
  cases isToken
  rw [String.toList_ofList]
  refine ⟨List.cons_ne_nil _ _,
    List.forall_mem_cons.mpr ⟨?_, fun _ member => ?_⟩⟩
  · exact isWordCharacter_of_namePart (isNamePart_of_nameStart starts)
  · exact isWordCharacter_of_namePart (List.mem_takeWhile_imp member)

/-- The lexeme of a scoped name is a word, with its colons. -/
theorem isWord_scopePiece
    {rest : List Char}
    {kind : TokenKind}
    {lexeme : String}
    (isToken : (scopePiece rest).content = .token kind lexeme) :
    IsWord lexeme.toList := by
  dsimp only [scopePiece] at isToken
  split at isToken
  · cases isToken
    rw [String.toList_ofList]
    refine ⟨List.cons_ne_nil _ _, List.forall_mem_cons.mpr ⟨by decide,
      List.forall_mem_cons.mpr ⟨by decide, fun _ member => ?_⟩⟩⟩
    exact isWordCharacter_of_namePart (List.mem_takeWhile_imp member)
  · cases isToken

/-- The kinds of the tokens whose lexemes stand in an outline as they are. -/
def IsVerbatim (kind : TokenKind) : Prop :=
  kind = .identifier ∨ kind = .number

instance (kind : TokenKind) : Decidable (IsVerbatim kind) :=
  inferInstanceAs (Decidable (_ ∨ _))

theorem not_isVerbatim_of_dotted?
    {word : String}
    {kind : TokenKind} :
    Word.dotted? word = some kind → ¬ IsVerbatim kind :=
  holds_of_lookup (¬ IsVerbatim ·) (by decide)

/-- A dot word is no name or number, so it is never shown as it is written. -/
theorem not_isVerbatim_dotPiece
    {rest : List Char}
    {kind : TokenKind}
    {lexeme : String}
    (isToken : (dotPiece rest).content = .token kind lexeme) :
    ¬ IsVerbatim kind := by
  dsimp only [dotPiece] at isToken
  split at isToken
  · split at isToken
    · next found =>
        cases isToken
        exact not_isVerbatim_of_dotted? found
    · cases isToken
  · cases isToken

/-- A sign is no name or number, so it is never shown as it is written. -/
theorem not_isVerbatim_signPiece
    {first : Char}
    {rest : List Char}
    {kind : TokenKind}
    {lexeme : String}
    (isToken : (signPiece first rest).content = .token kind lexeme) :
    ¬ IsVerbatim kind := by
  dsimp only [signPiece] at isToken
  split at isToken
  · next found =>
      cases isToken
      unfold sign? at found
      split at found
      all_goals cases found
      all_goals decide
  · cases isToken

/-- A name or a number that is cut off can stand as a word in an outline. -/
theorem isWord_cutPiece
    {σ : Type}
    {reader : LineReader σ}
    {memory : σ}
    {before : List Char}
    {offset : Nat}
    {first : Char}
    {rest : List Char}
    {kind : TokenKind}
    {lexeme : String}
    (isToken : (cutPiece reader memory before offset first rest).1.content =
      .token kind lexeme)
    (verbatim : IsVerbatim kind) :
    IsWord lexeme.toList := by
  have begins := Opening.begins before first rest
  unfold cutPiece at isToken
  cases opening : Opening.of before first rest with
  | space | lineComment | starComment =>
      rw [opening] at isToken
      cases isToken
  | blockComment =>
      rw [opening] at isToken
      dsimp only [blockCommentPiece] at isToken
      split at isToken <;> cases isToken
  | semicolon =>
      rw [opening] at isToken
      dsimp only [semicolonPiece] at isToken
      split at isToken <;> cases isToken
      exact absurd verbatim (by decide)
  | quote =>
      rw [opening] at isToken
      dsimp only [quotePiece] at isToken
      split at isToken <;> cases isToken
      exact absurd verbatim (by decide)
  | bracket =>
      rw [opening] at isToken
      dsimp only [bracketPiece] at isToken
      split at isToken <;> cases isToken
      · exact absurd verbatim (by decide)
      · exact absurd verbatim (by decide)
  | dot =>
      rw [opening] at isToken
      exact absurd verbatim (not_isVerbatim_dotPiece isToken)
  | digit =>
      rw [opening] at isToken begins
      exact isWord_numberPiece begins rest isToken
  | scope =>
      rw [opening] at isToken
      exact isWord_scopePiece isToken
  | name =>
      rw [opening] at isToken begins
      exact isWord_namePiece begins rest isToken
  | sign =>
      rw [opening] at isToken
      exact absurd verbatim (not_isVerbatim_signPiece isToken)

/-- A name or a number among the tokens of a text is a word. -/
theorem isWord_of_mem_tokens
    {text : List Char}
    {token : Token}
    (member : token ∈ tokens (all text))
    (verbatim : IsVerbatim token.kind) :
    IsWord token.lexeme.toList := by
  obtain ⟨lexeme, among, rfl⟩ := List.mem_map.mp member
  have notEnd : lexeme.token.kind ≠ .endOfFile := by
    intro isEnd
    rw [isEnd] at verbatim
    exact absurd verbatim (by decide)
  obtain ⟨before, first, tail, after, -, -, made⟩ := exists_madeOf among notEnd
  cases content : (cutPiece .plain () before (byteWidth before) first
    (tail ++ after)).1.content with
  | skipped =>
      rw [content] at made
      cases made
  | token kind lexeme =>
      rw [content] at made
      cases made
      exact isWord_cutPiece content verbatim
  | fault cause =>
      rw [content] at made
      cases made
      exact absurd verbatim (show ¬ IsVerbatim .error by decide)

end Lexeme

/-! ## Programs of texts -/

/--
All that a tree can show of a token is legible, if its name
or number is a word.
-/
theorem Token.allLegible_marks
    {token : Token}
    (isWord : Lexeme.IsVerbatim token.kind → IsWord token.lexeme.toList) :
    AllLegible token.marks := by
  refine allLegible_cons.mpr ⟨trivial, ?_⟩
  split
  · next value isLiteral =>
      refine List.forall_mem_singleton.mpr ?_
      unfold literal? at isLiteral
      split at isLiteral
      case h_1 isNumber =>
          cases isLiteral
          exact isWord (.inr isNumber)
      case h_6 => cases isLiteral
      all_goals cases isLiteral
      · trivial
      · rfl
      · exact isWord_of_all (by decide) rfl
      · exact isWord_of_all (by decide) rfl
  · split
    · next isName => exact List.forall_mem_singleton.mpr (isWord (.inl isName))
    · exact List.forall_mem_singleton.mpr trivial

/--
All names and literals of the program of
a text can be read off from its outline.
-/
theorem allLegible_programOfText (text : List Char) :
    AllLegible (Stmt.allMarks (programOfText text).value.statements) := by
  intro mark member
  have shown := shows_readProgram (Lexeme.tokens (Lexeme.all text))
  obtain ⟨token, among, shows'⟩ := List.mem_flatMap.mp (shown.subset member)
  have ofText := (List.takeWhile_sublist _).subset among
  exact Token.allLegible_marks (Lexeme.isWord_of_mem_tokens ofText) mark shows'

/--
Programs whose names and literals can be read
off from their outlines are told by these.
-/
theorem blind_program_of_outline
    {first second : Program}
    (legible : AllLegible (Stmt.allMarks first.statements))
    (legibleToo : AllLegible (Stmt.allMarks second.statements))
    (same : first.outline = second.outline) :
    relabel .blind first = relabel .blind second := by
  rw [Program.outline, Program.outline, ← Stmt.text_lines, ← Stmt.text_lines]
    at same
  have lines := Lines.eq_of_text_eq (Stmt.clean_lines legible)
      (Stmt.clean_lines legibleToo) same
  have statements := blind_stmts_of_lines legible legibleToo lines
  exact congrArg (fun statements => Program.mk statements (Span.empty 0))
    statements

/--
Two texts have programs with the same outline
just where these are the same up to places.
-/
theorem outline_eq_iff_blind_eq (first second : List Char) :
    (programOfText first).value.outline = (programOfText second).value.outline ↔
      relabel .blind (programOfText first).value =
        relabel .blind (programOfText second).value := by
  constructor
  · exact blind_program_of_outline (allLegible_programOfText first)
      (allLegible_programOfText second)
  · exact fun alike =>
      outlines_eq_of_blind (congrArg Program.statements alike) 0

end Clipper
