import Clipper.Proofs.Directive.Origin

/-!
# Text on one line of a filtered text

A directive is cut out with its whole lines.  So a piece of the filtered text
that holds no line feed comes from one piece of the source text, and is placed
there.

That all lines but the last end in line feeds is what keeps a line together:
two lines of the source text that are next to each other in the filtered text
are still separated by a line feed there.  So a piece without a line feed lies
within one line, and a line has one place.
-/

namespace Clipper.Directive

open Source

/-- All lines but the last end in a line feed. -/
def EndInLineFeeds (texts : List (List Char)) : Prop :=
  ∀ text ∈ texts.dropLast, text.getLast? = some '\n'

/-- What is left of such lines behind the first one is again such lines. -/
theorem EndInLineFeeds.tail
    {text : List Char}
    {texts : List (List Char)}
    (ended : EndInLineFeeds (text :: texts)) :
    EndInLineFeeds texts := by
  intro other member
  apply ended
  cases texts with
  | nil => cases member
  | cons second texts => exact List.mem_cons_of_mem text member

/--
All lines of a text but the last end in a line feed.  The induction follows
the text, character by character.
-/
theorem endInLineFeeds_lines (text : List Char) :
    EndInLineFeeds (lines text) := by
  induction text with
  | nil =>
      intro line member
      cases member
  | cons character rest hypothesis =>
      intro line member
      rw [lines] at member
      split at member
      · next isLineFeed =>
          cases shape : lines rest with
          | nil =>
              rw [shape] at member
              cases member
          | cons second later =>
              rw [shape, List.dropLast_cons_cons] at member
              rcases List.mem_cons.mp member with rfl | isLater
              · rw [isLineFeed]
                rfl
              · rw [← shape] at isLater
                exact hypothesis line isLater
      · split at member
        · cases member
        · next second later shape =>
            rw [shape] at hypothesis
            cases later with
            | nil => cases member
            | cons third later =>
                rw [List.dropLast_cons_cons] at member
                rcases List.mem_cons.mp member with rfl | isLater
                · have ends : second.getLast? = some '\n' :=
                    hypothesis second List.mem_cons_self
                  rw [List.getLast?_cons, ends]
                  rfl
                · exact hypothesis line (List.mem_cons_of_mem second isLater)

/-- Text without a line feed is kept as a whole, with consecutive origins. -/
theorem keptOffsets_of_oneLine
    {marked : List Line}
    {before raw after : List Char}
    (ended : EndInLineFeeds (marked.map Line.text))
    (text : keptText marked = before ++ (raw ++ after))
    (nonempty : raw ≠ [])
    (oneLine : '\n' ∉ raw)
    (original : Nat) :
    ∃ front behind,
      marked.flatMap Line.text = front ++ (raw ++ behind) ∧
        ∀ index < byteWidth raw,
          (keptOffsets original marked)[byteWidth before + index]? =
            some (original + byteWidth front + index) := by
  induction marked generalizing before original with
  | nil => simp [keptText, nonempty] at text
  | cons line rest hypothesis =>
      cases kept : line.kept with
      | false =>
          have same : keptText (line :: rest) = keptText rest := by
            simp [keptText, kept]
          rw [same] at text
          obtain ⟨front, behind, split, places⟩ :=
            hypothesis ended.tail text (original + byteWidth line.text)
          refine ⟨line.text ++ front, behind, ?_, ?_⟩
          · rw [List.flatMap_cons, split, List.append_assoc]
          · intro index bound
            rw [keptOffsets, kept, byteWidth_append, ← Nat.add_assoc]
            exact places index bound
      | true =>
          have same : keptText (line :: rest) = line.text ++ keptText rest := by
            simp [keptText, kept]
          rw [same] at text
          have place :
              (∃ more, before = line.text ++ more ∧
                keptText rest = more ++ (raw ++ after)) ∨
                ∃ here, here ≠ [] ∧ line.text = before ++ here ∧
                  raw ++ after = here ++ keptText rest := by
            rcases List.append_eq_append_iff.mp text
              with ⟨more, whole, later⟩ | ⟨here, whole, later⟩
            · exact .inl ⟨more, whole, later⟩
            · cases here with
              | nil => exact .inl ⟨[], by simpa using whole.symm, later.symm⟩
              | cons character here =>
                  exact .inr ⟨character :: here, by simp, whole, later⟩
          rcases place with ⟨more, rfl, later⟩ | ⟨here, someHere, whole, split⟩
          · -- The piece stands on a later line.
            obtain ⟨front, behind, split, places⟩ :=
              hypothesis ended.tail later (original + byteWidth line.text)
            refine ⟨line.text ++ front, behind, ?_, ?_⟩
            · rw [List.flatMap_cons, split, List.append_assoc]
            · intro index bound
              rw [keptOffsets, kept, if_pos rfl, byteWidth_append,
                byteWidth_append, Nat.add_assoc (byteWidth line.text),
                List.getElem?_append_right (by simp), List.length_range',
                Nat.add_sub_cancel_left, ← Nat.add_assoc original]
              exact places index bound
          · -- The piece begins on this line and ends at its line feed at most.
            obtain ⟨tail, rfl⟩ : ∃ tail, here = raw ++ tail := by
              rcases List.append_eq_append_iff.mp split
                with ⟨tail, isHere, -⟩ | ⟨tail, isRaw, later⟩
              · exact ⟨tail, isHere⟩
              · cases rest with
                | nil =>
                    obtain ⟨rfl, -⟩ := List.append_eq_nil_iff.mp later.symm
                    exact ⟨[], by rw [isRaw, List.append_nil, List.append_nil]⟩
                | cons next rest =>
                    have ends : line.text.getLast? = some '\n' :=
                      ended line.text List.mem_cons_self
                    rw [whole, List.getLast?_append_of_ne_nil _ someHere]
                      at ends
                    refine absurd ?_ oneLine
                    rw [isRaw]
                    exact List.mem_append_left _ (List.mem_of_getLast? ends)
            refine ⟨before, tail ++ rest.flatMap Line.text, ?_, ?_⟩
            · rw [List.flatMap_cons, whole]
              simp
            · intro index bound
              have width : byteWidth line.text =
                  byteWidth before + (byteWidth raw + byteWidth tail) := by
                rw [whole, byteWidth_append, byteWidth_append]
              have inLine : byteWidth before + index < byteWidth line.text := by
                omega
              rw [keptOffsets, kept, if_pos rfl,
                List.getElem?_append_left (by simpa using inLine),
                List.getElem?_range' inLine, Nat.one_mul, Nat.add_assoc]

/--
A piece of the filtered text on one line stands as it is in the source text.
-/
theorem exists_source_of_oneLine
    {source before raw after : List Char}
    (text : (Filtered.ofSource source).text = before ++ (raw ++ after))
    (nonempty : raw ≠ [])
    (oneLine : '\n' ∉ raw) :
    ∃ front behind,
      source = front ++ (raw ++ behind) ∧
        (Filtered.ofSource source).place
            ⟨byteWidth before, byteWidth before + byteWidth raw⟩ =
          ⟨byteWidth front, byteWidth front + byteWidth raw⟩ := by
  have texts : (mark source).map Line.text = lines source :=
    map_text_markFrom ..
  have ended : EndInLineFeeds ((mark source).map Line.text) := by
    rw [texts]
    exact endInLineFeeds_lines source
  obtain ⟨front, behind, split, places⟩ :=
    keptOffsets_of_oneLine ended text nonempty oneLine 0
  have whole : (mark source).flatMap Line.text = source := by
    rw [List.flatMap_def, texts, flatten_lines]
  rw [whole] at split
  refine ⟨front, behind, split, ?_⟩
  have wide := byteWidth_pos nonempty
  have inside : byteWidth before + byteWidth raw ≤
      byteWidth (Filtered.ofSource source).text := by
    rw [text, byteWidth_append, byteWidth_append]
    omega
  have origins {index : Nat} (bound : index < byteWidth raw) :
      origin source (byteWidth before + index) = byteWidth front + index := by
    have found := origin_of_lt
        (Nat.lt_of_lt_of_le (Nat.add_lt_add_left bound _) inside)
    rw [Directive.origins, places index bound, Nat.zero_add] at found
    exact (Option.some.inj found).symm
  rw [Filtered.place, Filtered.place?_nonempty (by omega) inside,
    Option.getD_some]
  have first := origins wide
  have last := origins (show byteWidth raw - 1 < byteWidth raw by omega)
  rw [← Nat.add_sub_assoc wide] at last
  rw [Nat.add_zero] at first
  rw [first, last, Span.mk.injEq]
  omega

end Clipper.Directive
