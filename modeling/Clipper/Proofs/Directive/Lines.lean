import Clipper.Proofs.Directive.Placement

/-!
# Cutting a text into lines

Each line of a text ends at its line feed, which it holds; only the last line
may lack one.  There is one such cut of a text: lines put together are cut into
the same lines again, and so are some of them, in order.

The cut is told by two laws: a run without line feeds, with its line feed, is
the first line of what it begins; and a text without line feeds is its own
only line.  From these, lines that end in line feeds come back when they are
put together, which is what the removal of lines does to a text.  Only the
last line may then lack its line feed, also among the lines that are left.
-/

namespace Clipper.Directive

/-! ## Lines of a text -/

/-- A line before another one ends with its line feed. -/
theorem pairwise_lines (source : List Char) :
    (lines source).Pairwise (fun line _ => line.getLast? = some '\n') := by
  induction source with
  | nil => exact .nil
  | cons character rest hypothesis =>
      unfold lines
      split
      · next feed =>
          rw [feed]
          exact hypothesis.cons fun _ _ => rfl
      · split
        · exact List.pairwise_singleton _ _
        · next line later shape =>
            rw [shape, List.pairwise_cons] at hypothesis
            refine hypothesis.2.cons fun other member => ?_
            rw [List.getLast?_cons, hypothesis.1 other member]
            rfl

theorem pairwise_mark (source : List Char) :
    (mark source).Pairwise (fun line _ => line.text.getLast? = some '\n') := by
  have texts := pairwise_lines source
  rwa [← map_text_markFrom false (lines source), List.pairwise_map] at texts

/-- A line has a character, and no line feed but at its end. -/
theorem mem_lines
    {source line : List Char}
    (member : line ∈ lines source) :
    line ≠ [] ∧ '\n' ∉ line.dropLast := by
  induction source generalizing line with
  | nil => cases member
  | cons character rest hypothesis =>
      unfold lines at member
      split at member
      · rcases List.mem_cons.mp member with rfl | later
        · exact ⟨List.cons_ne_nil _ _, List.not_mem_nil⟩
        · exact hypothesis later
      · next other =>
          split at member
          · rw [List.mem_singleton] at member
            subst member
            exact ⟨List.cons_ne_nil _ _, List.not_mem_nil⟩
          · next first later shape =>
              rcases List.mem_cons.mp member with rfl | isLater
              · obtain ⟨nonempty, within⟩ :=
                  hypothesis (shape ▸ List.mem_cons_self)
                refine ⟨List.cons_ne_nil _ _, ?_⟩
                rw [List.dropLast_cons_of_ne_nil nonempty,
                  List.mem_cons, not_or]
                exact ⟨Ne.symm other, within⟩
              · exact hypothesis (shape ▸ List.mem_cons_of_mem first isLater)

/-! ## Cuts -/

/--
Texts that are lines: each ends at its
line feed, and only the last may lack one.
-/
structure AreLines (texts : List (List Char)) : Prop where
  nonempty : ∀ text ∈ texts, text ≠ []
  within : ∀ text ∈ texts, '\n' ∉ text.dropLast
  ended : texts.Pairwise (fun text _ => text.getLast? = some '\n')

theorem areLines_lines (source : List Char) : AreLines (lines source) :=
  ⟨fun _ member => (mem_lines member).1, fun _ member => (mem_lines member).2,
    pairwise_lines source⟩

/-- Some lines of a text, in order, are lines. -/
theorem AreLines.sublist
    {texts chosen : List (List Char)}
    (areLines : AreLines texts)
    (sublist : chosen.Sublist texts) :
    AreLines chosen :=
  ⟨fun text member => areLines.nonempty text (sublist.subset member),
    fun text member => areLines.within text (sublist.subset member),
    areLines.ended.sublist sublist⟩

/--
A run without line feeds and the line feed behind it are the first line, and
the lines of the rest come after it.
-/
theorem lines_append_newline
    {front : List Char}
    (within : '\n' ∉ front)
    (rest : List Char) :
    lines (front ++ '\n' :: rest) = (front ++ ['\n']) :: lines rest := by
  induction front with
  | nil => rfl
  | cons character front hypothesis =>
      rw [List.mem_cons, not_or] at within
      rw [List.cons_append, lines, if_neg (Ne.symm within.1),
        hypothesis within.2]
      rfl

/-- A text without line feeds is one line, unless it is empty. -/
theorem lines_of_notMem
    {text : List Char}
    (nonempty : text ≠ [])
    (within : '\n' ∉ text) :
    lines text = [text] := by
  induction text with
  | nil => exact absurd rfl nonempty
  | cons character rest hypothesis =>
      rw [List.mem_cons, not_or] at within
      rw [lines, if_neg (Ne.symm within.1)]
      cases rest with
      | nil => rfl
      | cons next rest => rw [hypothesis (List.cons_ne_nil next rest) within.2]

/-- Lines put together are cut into the same lines again. -/
theorem AreLines.lines_flatten
    {texts : List (List Char)}
    (areLines : AreLines texts) :
    lines texts.flatten = texts := by
  induction texts with
  | nil => rfl
  | cons text rest hypothesis =>
      have onRest := hypothesis
          (areLines.sublist (List.sublist_cons_self text rest))
      have within := areLines.within text List.mem_cons_self
      rcases List.eq_nil_or_concat text with empty | ⟨front, last, rfl⟩
      · exact absurd empty (areLines.nonempty text List.mem_cons_self)
      · rw [List.concat_eq_append, List.dropLast_concat] at within
        rw [List.flatten_cons, List.concat_eq_append]
        by_cases ends : last = '\n'
        · rw [ends, List.append_assoc, List.singleton_append,
            lines_append_newline within, onRest]
        · -- A line that lacks its line feed is the last one.
          have noneLater : rest = [] := by
            refine List.eq_nil_iff_forall_not_mem.mpr fun later member =>
              ends ?_
            have ended := (List.pairwise_cons.mp areLines.ended).1 later member
            rw [List.concat_eq_append, List.getLast?_concat] at ended
            exact Option.some.inj ended
          subst noneLater
          rw [List.flatten_nil, List.append_nil]
          refine lines_of_notMem
            (List.append_ne_nil_of_right_ne_nil _ (List.cons_ne_nil _ _)) ?_
          rw [List.mem_append, not_or, List.mem_singleton]
          exact ⟨within, Ne.symm ends⟩

end Clipper.Directive
