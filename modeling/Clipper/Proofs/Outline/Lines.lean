import Clipper.Proofs.Outline.Term

/-!
# Lines and their levels

An outline is a text of lines: each holds a term, the lines inside it stand one
level deeper, and further lines stand at its own level.  The blanks at the
beginning of a line tell its level, as no term begins with a blank.  So it can
be read off from the left which lines are inside a line, and where they end.

The lines are a forest, written from the top.  The proof that the text tells
the forest reads off one line at a time: the term is clean, so it ends with
its line; the lines inside are those that follow with more blanks; and the
first line with as many blanks as this one begins the rest.  Lines that hold a
word only, for the parts of compound statements, need no case of their own.
-/

namespace Clipper.Outline

/--
Lines of an outline: a term, the lines
inside its line, and the lines behind these.
-/
inductive Lines where
  | done
  | line (term : Term) (inner further : Lines)

namespace Lines

/-- The text of lines at a level. -/
def text (level : Nat) : Lines → List Char
  | done => []
  | line term inner further =>
      outlineLine level term.text ++
        (inner.text (level + 1) ++ further.text level)

/-- The terms of all lines are clean. -/
inductive Clean : Lines → Prop where
  | done : Clean done
  | line
      {term : Term}
      {inner further : Lines}
      (isClean : term.Clean)
      (innerClean : Clean inner)
      (furtherClean : Clean further) :
      Clean (line term inner further)

/-! ## Blanks -/

/-- The blanks at the beginning of a text. -/
def blanks (text : List Char) : List Char :=
  text.takeWhile (· == ' ')

theorem outlineLine_eq
    (level : Nat)
    (text : List Char) :
    outlineLine level text = List.replicate (4 * level) ' ' ++
      (text ++ ['\n']) := by
  have wide : indentation = List.replicate 4 ' ' := rfl
  rw [outlineLine, wide, List.flatten_replicate_replicate, Nat.mul_comm,
    List.append_assoc]

/--
A line of a clean term begins with four blanks for each of its
levels, and no more.
-/
theorem length_blanks_outlineLine
    (level : Nat)
    {term : Term}
    (clean : term.Clean)
    (rest : List Char) :
    (blanks (outlineLine level term.text ++ rest)).length = 4 * level := by
  obtain ⟨character, behind, shape, opens⟩ := clean.exists_first
  have visible : (character == ' ') = false := by
    rw [beq_eq_false_iff_ne]
    rintro rfl
    cases opens
  rw [outlineLine_eq, shape, List.append_assoc, blanks,
    Lexeme.takeWhile_append_of_head]
  · exact List.length_replicate
  · exact fun _ member => beq_iff_eq.mpr (List.eq_of_mem_replicate member)
  · rintro _ ⟨⟩
    exact visible

/-- The text that stands behind the lines at a level stands at a level above. -/
def Above
    (level : Nat)
    (rest : List Char) :
    Prop :=
  rest = [] ∨ (blanks rest).length < 4 * level

theorem Above.mono
    {level deeper : Nat}
    {rest : List Char}
    (above : Above level rest)
    (deep : level ≤ deeper) :
    Above deeper rest :=
  above.imp_right fun fewer => by omega

/-- A line is not above its own level. -/
theorem not_above_line
    (level : Nat)
    {term : Term}
    (clean : term.Clean)
    (rest : List Char) :
    ¬ Above level (outlineLine level term.text ++ rest) := by
  rintro (none | fewer)
  · simp [outlineLine] at none
  · rw [length_blanks_outlineLine level clean] at fewer
    exact Nat.lt_irrefl _ fewer

/-- Lines, and what stands above them, stand above what is inside a line. -/
theorem Clean.above
    {lines : Lines}
    (clean : lines.Clean)
    {level : Nat}
    {rest : List Char}
    (above : Above level rest) :
    Above (level + 1) (lines.text level ++ rest) := by
  cases clean with
  | done => exact above.mono (Nat.le_succ level)
  | line isClean =>
      rw [text, List.append_assoc, Above,
        length_blanks_outlineLine level isClean]
      exact .inr (by omega)

/-! ## Reading lines back -/

/-- What lines at a level are and where they end can be read off. -/
theorem text_append_inj
    {first second : Lines}
    (clean : first.Clean)
    (cleanToo : second.Clean)
    {level : Nat}
    {rest others : List Char}
    (above : Above level rest)
    (aboveToo : Above level others)
    (same : first.text level ++ rest = second.text level ++ others) :
    first = second ∧ rest = others := by
  induction clean generalizing second level rest others with
  | done =>
      cases cleanToo with
      | done => exact ⟨rfl, same⟩
      | line isClean =>
          rw [text, text, List.nil_append, List.append_assoc] at same
          exact absurd (same ▸ above) (not_above_line level isClean _)
  | @line term inner further isClean innerClean furtherClean innerRead
      furtherRead =>
      cases cleanToo with
      | done =>
          rw [text, text, List.nil_append, List.append_assoc] at same
          exact absurd (same ▸ aboveToo) (not_above_line level isClean _)
      | @line other otherInner otherFurther isCleanToo innerCleanToo
          furtherCleanToo =>
          have stops (behind : List Char) : Stops ('\n' :: behind) := by
            rintro _ ⟨⟩
            decide
          simp only [text, outlineLine_eq, List.append_assoc, List.cons_append,
            List.nil_append]
            at same
          obtain ⟨rfl, inside⟩ :=
            Term.text_append_inj isClean isCleanToo (stops _) (stops _)
              (List.append_cancel_left same)
          obtain ⟨rfl, behind⟩ :=
            innerRead innerCleanToo (furtherClean.above above)
              (furtherCleanToo.above aboveToo) (List.cons.inj inside).2
          obtain ⟨rfl, ends⟩ :=
            furtherRead furtherCleanToo above aboveToo behind
          exact ⟨rfl, ends⟩

/-- Lines with the same text are the same lines. -/
theorem eq_of_text_eq
    {first second : Lines}
    (clean : first.Clean)
    (cleanToo : second.Clean)
    {level : Nat}
    (same : first.text level = second.text level) :
    first = second := by
  have whole : first.text level ++ [] = second.text level ++ [] := by rw [same]
  exact (text_append_inj clean cleanToo (.inl rfl) (.inl rfl) whole).1

end Lines

end Clipper.Outline
