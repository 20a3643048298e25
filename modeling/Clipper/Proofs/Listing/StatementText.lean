import Clipper.Proofs.Listing.ExpressionText

/-!
# The text of a program spells its tokens

The statements of a block stand deeper than the block.  What is put in front of
their lines is blank, so a statement spells its tokens at every depth.

To spread a gap over a text is to put it in front of each line but the first.
That is what the printer does to the body of a compound statement, level by
level, and two gaps that are spread one after the other are one longer gap.  A
statement on a single line is not changed by it; so the only texts to look at
are the heads and the closing words of compound statements, which begin and
end lines.
-/

namespace Clipper

open Lexeme

/-! ## Depths -/

/-- A text with a gap put in front of all its lines but the first. -/
def spread (gap text : List Char) : List Char :=
  text.flatMap (fun character =>
    if character = '\n' then '\n' :: gap else [character])

theorem spread_cons (gap text : List Char) (first : Char) :
    spread gap (first :: text) =
      (if first = '\n' then '\n' :: gap else [first]) ++ spread gap text :=
  List.flatMap_cons

theorem spread_append (gap first second : List Char) :
    spread gap (first ++ second) = spread gap first ++ spread gap second :=
  List.flatMap_append

/-- A text without line breaks stays as it is when a gap is spread over it. -/
theorem spread_of_isClean
    (gap : List Char)
    {text : List Char}
    (clean : IsClean text) :
    spread gap text = text := by
  induction text with
  | nil => rfl
  | cons first rest hypothesis =>
      rw [IsClean, List.forall_mem_cons] at clean
      rw [spread_cons, if_neg clean.1.2, hypothesis clean.2]
      rfl

theorem spread_nil (text : List Char) : spread [] text = text := by
  induction text with
  | nil => rfl
  | cons first rest hypothesis =>
      rw [spread_cons, hypothesis]
      split
      · next same => rw [same, List.singleton_append]
      · rfl

/-- To spread a gap over a text that has one is to spread both gaps together. -/
theorem spread_spread
    (gap text : List Char)
    {more : List Char}
    (clean : IsClean more) :
    spread gap (spread more text) = spread (gap ++ more) text := by
  induction text with
  | nil => rfl
  | cons first rest hypothesis =>
      rw [spread_cons, spread_append, hypothesis, spread_cons]
      split
      · rw [spread_cons, if_pos rfl, spread_of_isClean gap clean,
          List.cons_append]
      · next other => rw [spread_cons, if_neg other, spread, List.flatMap_nil,
          List.append_nil]

/-- A text that stands deeper, with a gap in front of its lines. -/
theorem spread_indent (gap text : List Char) :
    spread gap (indent text) = indentation ++
      spread (gap ++ indentation) text := by
  have clean : IsClean indentation := by decide
  rw [indent, spread_append, spread_of_isClean gap clean]
  exact congrArg (indentation ++ ·) (spread_spread gap text clean)

namespace Lexeme

/-- The text ends, or its line does. -/
def endsLine (rest : List Char) : Bool :=
  rest.head?.all (· == '\n')

theorem endsWord_of_endsLine
    {rest : List Char}
    (ends : endsLine rest = true) :
    endsWord rest = true := by
  cases rest with
  | nil => rfl
  | cons first others =>
      obtain rfl : first = '\n' := beq_iff_eq.mp ends
      rfl

theorem endsSign_of_endsLine
    {rest : List Char}
    (ends : endsLine rest = true) :
    endsSign rest = true := by
  cases rest with
  | nil => rfl
  | cons first others =>
      obtain rfl : first = '\n' := beq_iff_eq.mp ends
      rfl

/-- The reserved words of listings. -/
def keywords : List (String × TokenKind) :=
  [("IF", .ifWord), ("ELSE", .elseWord), ("ENDIF", .endIf),
    ("WHILE", .whileWord), ("ENDDO", .endDo), ("RETURN", .returnWord),
    ("FUNCTION", .function), ("PROCEDURE", .procedure),
    ("ENDFUNCTION", .endFunction), ("ENDPROC", .endProcedure),
    ("LOCAL", .localWord), ("STATIC", .static), ("FOR", .forWord),
    ("TO", .toWord), ("STEP", .step), ("NEXT", .next), ("EXIT", .exit),
    ("LOOP", .loop)]

theorem keywords_reserved :
    ∀ keyword ∈ keywords,
      isPlainName keyword.1.toList = true ∧ Word.reserved? keyword.1 =
        some keyword.2 := by
  decide +kernel

theorem spells_keyword
    (word : String)
    (kind : TokenKind)
    (member : (word, kind) ∈ keywords) :
    Spells word.toList [.unplaced kind word] endsWord := by
  obtain ⟨plain, reserved⟩ := keywords_reserved _ member
  have spells := spells_plainName plain
  rwa [String.ofList_toList, reserved] at spells

end Lexeme

/-! ## Line breaks and declared names -/

/-- A gap in front of lines is blank. -/
def IsBlankGap (gap : List Char) : Prop :=
  ∀ character ∈ gap, character = ' '

theorem spells_newLine
    {gap : List Char}
    (blank : IsBlankGap gap) :
    Spells ('\n' :: gap) [] anyText := by
  refine spells_spaces
    (List.forall_mem_cons.mpr ⟨rfl, fun character member => ?_⟩)
  rw [blank character member]
  rfl

/-- A declared name spells its tokens, with its first value or without. -/
theorem Binding.spells
    {binding : Binding}
    (printable : binding.isPrintable = true) :
    Spells binding.listing binding.tokens endsWord := by
  obtain ⟨name, value?, span⟩ := binding
  rw [isPrintable, Bool.and_eq_true] at printable
  have named := Identifier.spells printable.1
  cases value? with
  | none => exact named.append spells_nothing (fun _ ends => ends)
  | some value =>
      have sign :=
        (spells_space.append (spells_longSign ':' '=' .assign (by decide))
          (fun _ _ => rfl)).append spells_space (fun _ _ => rfl)
      exact named.append
        (sign.append (value.spells printable.2) (fun _ _ => rfl))
        (fun _ _ => rfl)

/-- A declared name is printed on one line. -/
theorem Binding.isClean
    {binding : Binding}
    (printable : binding.isPrintable = true) :
    IsClean binding.listing := by
  obtain ⟨name, value?, span⟩ := binding
  rw [isPrintable, Bool.and_eq_true] at printable
  have named := (Identifier.isWordText printable.1).isClean
  cases value? with
  | none => exact named.append isClean_nil
  | some value =>
      have sign : IsClean " := ".toList := by decide
      exact named.append (sign.append (value.isClean printable.2))

/-! ## Lines of a block -/

theorem space_isClean : ' ' ≠ '\\' ∧ ' ' ≠ '\n' := by
  decide

section

variable {gap : List Char} (blank : IsBlankGap gap)

theorem spread_bodyLines_cons
    (first : List Char)
    (rest : List (List Char)) :
    spread gap (bodyLines (first :: rest)) =
      '\n' :: (gap ++ indentation) ++
        (spread (gap ++ indentation) first ++ spread gap (bodyLines rest)) := by
  rw [bodyLines, List.flatMap_cons, spread_append, spread_cons, if_pos rfl,
    spread_indent]
  simp [bodyLines]

include blank in
theorem isBlankGap_deeper : IsBlankGap (gap ++ indentation) := by
  have deeper : IsBlankGap indentation := by
    intro character member
    simpa [indentation] using member
  exact fun character member =>
    (List.mem_append.mp member).elim (blank character) (deeper character)

/--
The lines of a body begin with a line break, so the line before them ends.
-/
theorem endsLine_bodyLines
    (lines : List (List Char))
    {rest : List Char}
    (ends : endsLine rest = true) :
    endsLine (spread gap (bodyLines lines) ++ rest) = true := by
  cases lines with
  | nil => exact ends
  | cons first others =>
      rw [spread_bodyLines_cons]
      rfl

end

/-- A word, a space and what follows. -/
theorem spells_afterWord
    {followed : List Char → Bool}
    (word : String)
    (kind : TokenKind)
    (member : (word, kind) ∈ keywords)
    {text : List Char}
    {tokens : List Token}
    (next : Spells text tokens followed) :
    Spells (word.toList ++ ' ' :: text)
      (.unplaced kind word :: tokens) followed :=
  (spells_keyword word kind member).append
    (spells_space.append next (fun _ _ => rfl))
      (fun _ _ => rfl)

/--
The sign of an assignment, between blanks, and what comes behind it spell the
sign and the tokens of what comes.
-/
theorem spells_assignment
    {followed : List Char → Bool}
    {text : List Char}
    {tokens : List Token}
    (next : Spells text tokens followed) :
    Spells (" := ".toList ++ text)
      (.unplaced .assign ":=" :: tokens) followed :=
  spells_space.append ((spells_longSign ':' '=' .assign (by decide)).append
    (spells_space.append next (fun _ _ => rfl)) (fun _ _ => rfl))
    (fun _ _ => rfl)

/--
The head of a routine spells its words, its name and its parameters
between parentheses.
-/
theorem RoutineHead.spells
    {head : RoutineHead}
    (printable : head.isPrintable = true) :
    Spells head.listing head.tokens anyText := by
  obtain ⟨kind, isStatic, name, parameters⟩ := head
  rw [isPrintable, Bool.and_eq_true, List.all_eq_true] at printable
  have names := spells_commaSeparated parameters
    (fun parameter member => Identifier.spells (printable.2 parameter member))
  have enclosed := (spells_delimiter '(' .leftParenthesis (by decide)).append
    (names.append (spells_delimiter ')' .rightParenthesis (by decide))
      (fun _ _ => rfl))
    (fun _ _ => rfl)
  have named := (Identifier.spells printable.1).append enclosed (fun _ _ => rfl)
  have opened : Spells
      (kind.opener.toList ++ ' ' :: (name.listing ++ '(' ::
        (commaSeparated (parameters.map Identifier.listing) ++ [')'])))
      (kind.token :: name.token :: .unplaced .leftParenthesis "(" ::
        (commaTokens (parameters.map (fun parameter => [parameter.token])) ++
          [.unplaced .rightParenthesis ")"])) anyText := by
    cases kind with
    | function => exact spells_afterWord "FUNCTION" .function (by decide) named
    | procedure =>
        exact spells_afterWord "PROCEDURE" .procedure (by decide) named
  cases isStatic with
  | false => exact opened
  | true => exact spells_afterWord "STATIC" .static (by decide) opened

/-- The head of a routine is printed on one line. -/
theorem RoutineHead.isClean
    {head : RoutineHead}
    (printable : head.isPrintable = true) :
    IsClean head.listing := by
  obtain ⟨kind, isStatic, name, parameters⟩ := head
  rw [isPrintable, Bool.and_eq_true, List.all_eq_true] at printable
  have names : IsClean
      (commaSeparated (parameters.map Identifier.listing)) := by
    refine isClean_commaSeparated _ fun piece member => ?_
    obtain ⟨parameter, isParameter, rfl⟩ := List.mem_map.mp member
    exact (Identifier.isWordText (printable.2 parameter isParameter)).isClean
  have opener : IsClean kind.opener.toList := by cases kind <;> decide
  have first : IsClean (if isStatic then "STATIC ".toList else []) := by
    cases isStatic <;> decide
  exact first.append
    (opener.append (((Identifier.isWordText printable.1).isClean.append
      ((names.append (by decide)).cons (by decide))).cons (by decide)))

/-! ## Statements on one line -/

section

variable {gap : List Char}

/-- A line without paths and escapes spells its tokens at every depth. -/
theorem spells_line
    {text : List Char}
    {tokens : List Token}
    (clean : IsClean text)
    (spells : Spells text tokens endsWord) :
    Spells (spread gap text) tokens endsLine := by
  rw [spread_of_isClean gap clean]
  exact spells.weaken (fun _ => id) (fun _ => endsWord_of_endsLine)

/--
An assignment spells the tokens of its target, the sign, and the
tokens of its value.
-/
theorem spells_assign
    {target value : Expr}
    (printableTarget : target.isPrintable = true)
    (printableValue : value.isPrintable = true) :
    Spells (spread gap (target.listing ++ " := ".toList ++ value.listing))
      (target.tokens ++ .unplaced .assign ":=" :: value.tokens) endsLine := by
  have sign : IsClean " := ".toList := by decide
  rw [List.append_assoc]
  exact spells_line
    ((target.isClean printableTarget).append
      (sign.append (value.isClean printableValue)))
    ((target.spells printableTarget).append
      (spells_assignment (value.spells printableValue))
      (fun _ _ => rfl))

/--
An updating assignment spells the tokens of its target, its sign, and the
tokens of its value.
-/
theorem spells_update
    {target value : Expr}
    (operator : UpdateOperator)
    (printableTarget : target.isPrintable = true)
    (printableValue : value.isPrintable = true) :
    Spells
      (spread gap (target.listing ++ ' ' ::
        (operator.spelling.toList ++ ' ' :: value.listing)))
      (target.tokens ++ .unplaced operator.kind operator.spelling ::
        value.tokens) endsLine := by
  have spelling : IsClean operator.spelling.toList := by
    cases operator <;> decide
  have after : IsClean (operator.spelling.toList ++ ' ' :: value.listing) :=
    spelling.append ((value.isClean printableValue).cons space_isClean)
  exact spells_line
    ((target.isClean printableTarget).append (after.cons space_isClean))
    ((target.spells printableTarget).operation
      (target.endsVisibly printableTarget)
      (operator.spells.weaken (fun _ => id) (fun _ _ => rfl))
      (value.spells printableValue))

theorem spells_printSign (newLine : Bool) :
    Spells (if newLine then ['?'] else ['?', '?'])
      [if newLine then .unplaced .question "?"
        else .unplaced .doubleQuestion "??"] endsSign := by
  cases newLine with
  | true => exact spells_shortSign '?' .question (by decide)
  | false =>
      exact (spells_longSign '?' '?' .doubleQuestion (by decide)).weaken
        (fun _ => id) (fun _ _ => rfl)

/--
A statement that prints spells one question mark or two, and then the
tokens of its values.
-/
theorem spells_print
    {newLine : Bool}
    {values : List Expr}
    (span : Span)
    (printable : Expr.arePrintable values = true) :
    Spells (spread gap (Stmt.print newLine values span).listing)
      (Stmt.print newLine values span).tokens endsLine := by
  have sign := spells_printSign newLine
  have signClean : IsClean (if newLine then ['?'] else ['?', '?']) := by
    cases newLine <;> decide
  cases values with
  | nil =>
      change Spells (spread gap ((if newLine then ['?'] else ['?', '?']) ++ []))
        _ _
      rw [List.append_nil, spread_of_isClean gap signClean]
      exact sign.weaken (fun _ => id) (fun _ => endsSign_of_endsLine)
  | cons first others =>
      have texts := Expr.spells_separated
          (Expr.spells_listings (first :: others) printable)
      have clean := isClean_commaSeparated _
          (Expr.isClean_listings (first :: others) printable)
      change Spells (spread gap ((if newLine then ['?'] else ['?', '?']) ++
        ' ' :: commaSeparated (Expr.listings (first :: others)))) _ _
      exact spells_line (signClean.append (clean.cons space_isClean))
        (sign.append (spells_space.append texts (fun _ _ => rfl))
          (fun _ _ => rfl))

/--
A declaration spells its word, and then the tokens of the declared names with
commas between them.
-/
theorem spells_declare
    {storage : Storage}
    {bindings : List Binding}
    (printable : ∀ binding ∈ bindings, binding.isPrintable = true) :
    Spells
      (spread gap (storage.word.toList ++ ' ' ::
        commaSeparated (bindings.map Binding.listing)))
      (storage.token :: commaTokens (bindings.map Binding.tokens))
        endsLine := by
  have spells := spells_commaSeparated bindings
    (fun binding member => Binding.spells (printable binding member))
  have clean : IsClean (commaSeparated (bindings.map Binding.listing)) := by
    refine isClean_commaSeparated _ fun piece member => ?_
    obtain ⟨binding, isBinding, rfl⟩ := List.mem_map.mp member
    exact Binding.isClean (printable binding isBinding)
  have word : IsClean storage.word.toList := by cases storage <;> decide
  refine spells_line (word.append (clean.cons space_isClean)) ?_
  cases storage with
  | perCall => exact spells_afterWord "LOCAL" .localWord (by decide) spells
  | static => exact spells_afterWord "STATIC" .static (by decide) spells

theorem spells_result
    {value : Expr}
    (printable : value.isPrintable = true) :
    Spells (spread gap ("RETURN ".toList ++ value.listing))
      (.unplaced .returnWord "RETURN" :: value.tokens) endsLine := by
  have word : IsClean "RETURN ".toList := by decide
  exact spells_line (word.append (value.isClean printable))
    (spells_afterWord "RETURN" .returnWord (by decide) (value.spells printable))

/-- A statement that is one word. -/
theorem spells_loneWord
    (word : String)
    (kind : TokenKind)
    (clean : IsClean word.toList)
    (member : (word, kind) ∈ keywords) :
    Spells (spread gap word.toList) [.unplaced kind word] endsLine :=
  spells_line clean (spells_keyword word kind member)

/-- A statement on one line spells its tokens where its line ends. -/
theorem Stmt.spells_simple
    {statement : Stmt}
    (simple : statement.isSimple = true)
    (printable : statement.isPrintable = true) :
    Spells (spread gap statement.listing) statement.tokens endsLine := by
  cases statement with
  | expression value =>
      exact spells_line (value.isClean printable) (value.spells printable)
  | assign target value =>
      rw [isPrintable, Bool.and_eq_true, Bool.and_eq_true] at printable
      exact spells_assign printable.1.1 printable.2
  | update target operator value =>
      rw [isPrintable, Bool.and_eq_true, Bool.and_eq_true] at printable
      exact spells_update operator printable.1.1 printable.2
  | print newLine values span => exact spells_print span printable
  | declare storage bindings =>
      rw [isPrintable, Bool.and_eq_true, List.all_eq_true] at printable
      exact spells_declare printable.2
  | result value? =>
      cases value? with
      | none =>
          exact spells_loneWord "RETURN" .returnWord (by decide) (by decide)
      | some value => exact spells_result printable
  | exit => exact spells_loneWord "EXIT" .exit (by decide) (by decide)
  | loop => exact spells_loneWord "LOOP" .loop (by decide) (by decide)
  | conditional | whileLoop | forLoop | routine => cases simple

end

/-! ## Statements with blocks -/

section

variable {gap : List Char} (blank : IsBlankGap gap)

include blank in
/-- The next line spells what it spells on its own. -/
theorem spells_nextLine
    {text : List Char}
    {tokens : List Token}
    (spells : Spells (spread gap text) tokens endsLine) :
    Spells (spread gap ('\n' :: text)) tokens endsLine := by
  rw [spread_cons, if_pos rfl]
  exact (spells_newLine blank).append spells (fun _ _ => rfl)

/-- The head of a statement, its block, and the next line. -/
theorem spells_headed
    {head closing : List Char}
    {tokens others : List Token}
    {body : Block}
    (clean : IsClean head)
    (opens : Spells head tokens endsWord)
    (inside : Spells (spread gap (bodyLines body.listings))
      body.tokens endsLine)
    (closes : Spells (spread gap ('\n' :: closing)) others endsLine) :
    Spells (spread gap (head ++ (bodyLines body.listings ++ '\n' :: closing)))
      (tokens ++ (body.tokens ++ others)) endsLine := by
  have lineEnds (rest : List Char) :
      endsLine (spread gap ('\n' :: closing) ++ rest) = true := by
    rw [spread_cons, if_pos rfl]
    rfl
  rw [spread_append, spread_append, spread_of_isClean gap clean]
  refine opens.append (inside.append closes (fun rest _ => lineEnds rest))
    (fun rest _ => ?_)
  rw [List.append_assoc]
  exact endsWord_of_endsLine (endsLine_bodyLines _ (lineEnds rest))

end

/-- The text of the step of a counting loop. -/
def stepListing : Option Expr → List Char
  | some step => " STEP ".toList ++ step.listing
  | none => []

theorem isClean_stepListing
    {step? : Option Expr}
    (printable : step?.all Expr.isPrintable = true) :
    IsClean (stepListing step?) := by
  cases step? with
  | none => exact isClean_nil
  | some step =>
      have word : IsClean " STEP ".toList := by decide
      exact word.append (step.isClean printable)

/-- The last value of a counting loop and its step. -/
theorem spells_last
    {last : Expr}
    {step? : Option Expr}
    (printable : last.isPrintable = true)
    (printableStep : step?.all Expr.isPrintable = true) :
    Spells (last.listing ++ stepListing step?) (last.tokens ++ stepTokens step?)
      endsWord := by
  cases step? with
  | none =>
      exact (last.spells printable).append spells_nothing (fun _ ends => ends)
  | some step =>
      exact (last.spells printable).append
        (spells_space.append (spells_afterWord "STEP" .step (by decide)
          (step.spells printableStep)) (fun _ _ => rfl)) (fun _ _ => rfl)

/--
The head of a counting loop spells its tokens: the counter, the two bounds and
the step, if there is one.
-/
theorem spells_forHead
    {counter : Identifier}
    {first last : Expr}
    {step? : Option Expr}
    (printableCounter : counter.isPrintable = true)
    (printableFirst : first.isPrintable = true)
    (printableLast : last.isPrintable = true)
    (printableStep : step?.all Expr.isPrintable = true) :
    Spells
      ("FOR ".toList ++ (counter.listing ++ (" := ".toList ++
        (first.listing ++
          (" TO ".toList ++ (last.listing ++ stepListing step?))))))
      (.unplaced .forWord "FOR" :: counter.token :: .unplaced .assign ":=" ::
        (first.tokens ++ .unplaced .toWord "TO" ::
          (last.tokens ++ stepTokens step?)))
      endsWord := by
  have ends := spells_last printableLast printableStep
  have bounds := (first.spells printableFirst).append
    (spells_space.append (spells_afterWord "TO" .toWord (by decide) ends)
      (fun _ _ => rfl))
    (fun _ _ => rfl)
  exact spells_afterWord "FOR" .forWord (by decide)
    ((Identifier.spells printableCounter).append (spells_assignment bounds)
      (fun _ _ => rfl))

/-- The head of a counting loop is printed on one line. -/
theorem isClean_forHead
    {counter : Identifier}
    {first last : Expr}
    {step? : Option Expr}
    (printableCounter : counter.isPrintable = true)
    (printableFirst : first.isPrintable = true)
    (printableLast : last.isPrintable = true)
    (printableStep : step?.all Expr.isPrintable = true) :
    IsClean
      ("FOR ".toList ++ (counter.listing ++ (" := ".toList ++
        (first.listing ++
          (" TO ".toList ++ (last.listing ++ stepListing step?)))))) := by
  have word : IsClean "FOR ".toList := by decide
  have sign : IsClean " := ".toList := by decide
  have toWord : IsClean " TO ".toList := by decide
  exact word.append
    ((Identifier.isWordText printableCounter).isClean.append (sign.append
      ((first.isClean printableFirst).append (toWord.append
        ((last.isClean printableLast).append
          (isClean_stepListing printableStep))))))

mutual

/--
The text of a printable statement spells
the tokens of the statement at every depth.
-/
theorem Stmt.spells
    (statement : Stmt)
    (printable : statement.isPrintable = true)
    {gap : List Char}
    (blank : IsBlankGap gap) :
    Spells (spread gap statement.listing) statement.tokens endsLine := by
  cases statement with
  | conditional condition positive negative? =>
      have word : IsClean "IF ".toList := by decide
      have closes := spells_nextLine blank
        (spells_loneWord "ENDIF" .endIf (by decide) (by decide))
      cases negative? with
      | none =>
          simp only [Stmt.isPrintable, Bool.and_eq_true] at printable
          obtain ⟨⟨isCondition, -⟩, isPositive⟩ := printable
          have spells := spells_headed
            (word.append (condition.isClean isCondition))
            (spells_afterWord "IF" .ifWord (by decide)
              (condition.spells isCondition))
            (positive.spells isPositive blank) closes
          change Spells (spread gap ("IF ".toList ++ condition.listing ++
            bodyLines positive.listings ++ "\nENDIF".toList)) _ _
          rw [List.append_assoc]
          exact spells
      | some negative =>
          simp only [Stmt.isPrintable, Bool.and_eq_true] at printable
          obtain ⟨⟨⟨isCondition, -⟩, isPositive⟩, isNegative⟩ := printable
          have elseWord : IsClean "ELSE".toList := by decide
          have otherwise := spells_headed elseWord
            (spells_keyword "ELSE" .elseWord (by decide))
            (negative.spells isNegative blank) closes
          have spells := spells_headed
            (word.append (condition.isClean isCondition))
            (spells_afterWord "IF" .ifWord (by decide)
              (condition.spells isCondition))
            (positive.spells isPositive blank) (spells_nextLine blank otherwise)
          change Spells (spread gap ("IF ".toList ++ condition.listing ++
            bodyLines positive.listings ++ "\nELSE".toList ++
              bodyLines negative.listings ++
              "\nENDIF".toList)) _ _
          simp only [List.append_assoc] at spells ⊢
          exact spells
  | whileLoop condition body =>
      simp only [Stmt.isPrintable, Bool.and_eq_true] at printable
      obtain ⟨⟨isCondition, -⟩, isBody⟩ := printable
      have word : IsClean "WHILE ".toList := by decide
      have spells := spells_headed (word.append (condition.isClean isCondition))
        (spells_afterWord "WHILE" .whileWord (by decide)
          (condition.spells isCondition))
        (body.spells isBody blank)
        (spells_nextLine blank
          (spells_loneWord "ENDDO" .endDo (by decide) (by decide)))
      change Spells (spread gap ("WHILE ".toList ++ condition.listing ++
        bodyLines body.listings ++ "\nENDDO".toList)) _ _
      rw [List.append_assoc]
      exact spells
  | forLoop counter first last step? body =>
      simp only [Stmt.isPrintable, Bool.and_eq_true] at printable
      obtain ⟨⟨⟨⟨⟨isCounter, isFirst⟩, isLast⟩, isStep⟩, -⟩, isBody⟩ :=
        printable
      have spells := spells_headed
        (isClean_forHead isCounter isFirst isLast isStep)
        (spells_forHead isCounter isFirst isLast isStep)
        (body.spells isBody blank)
        (spells_nextLine blank
          (spells_loneWord "NEXT" .next (by decide) (by decide)))
      change Spells
        (spread gap ("FOR ".toList ++ counter.listing ++ " := ".toList ++
          first.listing ++ " TO ".toList ++ last.listing ++ stepListing step? ++
            bodyLines body.listings ++ "\nNEXT".toList)) _ _
      simp only [List.append_assoc, List.cons_append] at spells ⊢
      exact spells
  | routine head body =>
      rw [Stmt.isPrintable, Bool.and_eq_true] at printable
      have closes : Spells (spread gap ('\n' :: head.kind.closer.toList))
          [head.kind.closingToken] endsLine := by
        refine spells_nextLine blank ?_
        cases head.kind with
        | function =>
            exact spells_loneWord "ENDFUNCTION" .endFunction
              (by decide) (by decide)
        | procedure =>
            exact spells_loneWord "ENDPROC" .endProcedure
              (by decide) (by decide)
      have spells := spells_headed (RoutineHead.isClean printable.1)
        ((RoutineHead.spells printable.1).weaken (fun _ => id) (fun _ _ => rfl))
        (body.spells printable.2 blank) closes
      change Spells (spread gap (head.listing ++ bodyLines body.listings ++
        '\n' :: head.kind.closer.toList)) _ _
      rw [List.append_assoc]
      exact spells
  | expression | assign | update | print | declare | result | exit | loop =>
      exact Stmt.spells_simple rfl printable

/--
The lines of a block spell its tokens, whatever blanks stand in front of them.
-/
theorem Block.spells
    (block : Block)
    (printable : block.isPrintable = true)
    {gap : List Char}
    (blank : IsBlankGap gap) :
    Spells (spread gap (bodyLines block.listings)) block.tokens endsLine := by
  cases block with
  | of statements =>
      rw [Block.isPrintable, Bool.and_eq_true] at printable
      exact Stmt.spells_lines statements printable.2 blank

/-- The lines of several statements spell the tokens of one after the other. -/
theorem Stmt.spells_lines
    (statements : List Stmt)
    (printable : Stmt.arePrintable statements = true)
    {gap : List Char}
    (blank : IsBlankGap gap) :
    Spells (spread gap (bodyLines (Stmt.listings statements)))
      (Stmt.tokensOf statements) endsLine := by
  cases statements with
  | nil => exact spells_nothing
  | cons first rest =>
      simp only [Stmt.arePrintable, Bool.and_eq_true] at printable
      have deeper := isBlankGap_deeper blank
      change Spells
        (spread gap (bodyLines (first.listing :: Stmt.listings rest))) _ _
      rw [spread_bodyLines_cons]
      exact (spells_newLine deeper).append
        ((Stmt.spells first printable.1.1 deeper).append
          (Stmt.spells_lines rest printable.2 blank)
          (fun _ => endsLine_bodyLines _))
        (fun _ _ => rfl)

end

/-- The text of a printable program spells the tokens of the program. -/
theorem Program.spells
    (program : Program)
    (printable : Stmt.arePrintable program.statements = true) :
    Spells program.listing program.tokens anyText := by
  obtain ⟨statements, span⟩ := program
  change Spells ((Stmt.listings statements).flatMap (· ++ ['\n']))
    (Stmt.tokensOf statements) _
  dsimp only at printable
  induction statements with
  | nil => exact spells_nothing
  | cons first rest hypothesis =>
      simp only [Stmt.arePrintable, Bool.and_eq_true] at printable
      have noGap : IsBlankGap [] := fun _ member => by cases member
      have line : Spells first.listing first.tokens endsLine := by
        have spells := first.spells printable.1.1 noGap
        rwa [spread_nil] at spells
      have ended := line.append (spells_newLine noGap) (fun _ _ => rfl)
      rw [List.append_nil] at ended
      exact ended.append (hypothesis printable.2) (fun _ _ => rfl)

/--
The tokens of the text of a printable program are the tokens of the program.
-/
theorem Program.tokens_all_listing
    (program : Program)
    (printable : Stmt.arePrintable program.statements = true) :
    (Lexeme.tokens (all program.listing)).map (Relabelled.relabel .blind) =
      program.tokens ++ [.unplaced .endOfFile ""] :=
  tokens_all_of_spells (program.spells printable) rfl

end Clipper
