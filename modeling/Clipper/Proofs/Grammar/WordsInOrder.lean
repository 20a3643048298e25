import Clipper.Proofs.Grammar.StatementPasses

/-!
# The words of a tree in source order

The names and the literals of a program, read from left to right, are words of
its tokens in the order of the tokens.  No error changes this: what a recovery
skips, what a cut drops and what has no place in the tree is missing from the
words of the tree, but nothing is repeated, moved or made up.

The proof is short, as the work was done on marks: a reading passes tokens,
the tree shows marks of these tokens in order, and the words are some of the
marks.  What is new is only that a mark which is a word is the word of its
token.  The theorem says that the words of the tree are a sublist of the words
of the tokens, which excludes repetition and rearrangement at once, for any
list of tokens.
-/

namespace Clipper

open Grammar

/--
A word of a text that a tree keeps as it
is: a name where it stands, or a literal.
-/
inductive SourceWord where
  | name (identifier : Identifier)
  | literal (value : Literal)
deriving DecidableEq

/-- The word that a mark is; operators and forms are no words. -/
def Mark.word? : Mark → Option SourceWord
  | name identifier => some (.name identifier)
  | literal value => some (.literal value)
  | operator _ | form => none

/-- The word that a token says: a name, a number, a string or a constant. -/
def Token.word? (token : Token) : Option SourceWord :=
  match literal? token with
  | some value => some (.literal value)
  | none =>
      if token.kind = .identifier then some (.name ⟨token.lexeme, token.span⟩)
      else none

/--
The names and literals of a program from
left to right, without the placeholders.
-/
def Program.words (program : Program) : List SourceWord :=
  (Stmt.allMarks program.statements).filterMap Mark.word?

/-- The marks of a token hold its word and no other. -/
theorem Token.filterMap_word_marks (token : Token) :
    token.marks.filterMap Mark.word? = token.word?.toList := by
  unfold marks word?
  cases literal? token with
  | some value => rfl
  | none =>
      dsimp only
      split <;> rfl

/-- The words that tokens leave in a tree are the words of the tokens. -/
theorem filterMap_word_flatMap_marks (tokens : List Token) :
    (tokens.flatMap Token.marks).filterMap Mark.word? =
      tokens.filterMap Token.word? := by
  induction tokens with
  | nil => rfl
  | cons token rest hypothesis =>
      rw [List.flatMap_cons, List.filterMap_append,
        Token.filterMap_word_marks, hypothesis, List.filterMap_cons]
      cases token.word? <;> rfl

/-- What shows some tokens has words of theirs, in order. -/
theorem Shows.words_sublist
    {marks : List Mark}
    {tokens : List Token}
    (shows' : Shows marks tokens) :
    (marks.filterMap Mark.word?).Sublist (tokens.filterMap Token.word?) := by
  rw [← filterMap_word_flatMap_marks]
  exact List.Sublist.filterMap Mark.word? shows'

namespace Grammar

/--
The names and the literals of a program are words of the tokens before the end
of the file, each at most once and in order, whatever the tokens are and
whatever errors are reported.
-/
theorem words_sublist_tokens (tokens : List Token) :
    (readProgram tokens).value.words.Sublist
      ((tokens.takeWhile (·.kind != .endOfFile)).filterMap Token.word?) := by
  have start : (State.ofTokens tokens).Dropped := nofun
  obtain ⟨taken, passed, shown, -⟩ :=
    passes_program (State.ofTokens tokens) start
  obtain ⟨later, ahead⟩ :
      ∃ later, tokens.takeWhile (·.kind != .endOfFile) = taken ++ later := by
    cases passed with
    | whole ahead => exact ⟨_, ahead⟩
    | cut later ahead => exact ⟨later, ahead⟩
  rw [ahead]
  exact (shown.passing later).words_sublist

end Grammar

end Clipper
