import Clipper.Proofs.Source.Bytes
import Clipper.Source.Location

/-!
# Lines and columns identify offsets

The line of an offset is told by the number of line feeds before it, and its
column by the distance from the last of them.  So later offsets have later
locations, within a text and past its end, and no two offsets have the same one.

The beginning of a line is the offset behind its line feed, or the beginning
of the text.  It is described by three facts, that it is at or before the
offset, that a line feed stands before it, and that none stands between it and
the offset; and these determine it.  The table of line beginnings that the
program searches agrees with this description at every offset, and past the
end of the text the last line goes on.
-/

namespace Clipper

open Source

namespace Location

/--
A location is that of an offset among some bytes: its line counts the line feeds
before the offset, and its column the bytes from the place after the last of
them, or from zero where there is none.
-/
structure IsAt
    (bytes : List UInt8)
    (offset : Nat)
    (location : Location) :
    Prop where
  line : location.line = 1 + (bytes.take offset).count lineFeed
  column :
    ∃ start ≤ offset,
      location.column = 1 + (offset - start) ∧
        (start = 0 ∨ ∃ place, start = place + 1 ∧
          bytes[place]? = some lineFeed) ∧
        ∀ place, start ≤ place → place < offset → bytes[place]? ≠ some lineFeed

/--
Locations are in the order of their lines,
and on one line in that of their columns.
-/
def Precedes (first second : Location) : Prop :=
  first.line < second.line ∨ first.line = second.line ∧
  first.column < second.column

/-- A line feed between two offsets is counted for the later one only. -/
theorem count_take_lt
    {bytes : List UInt8}
    {first second place : Nat}
    (le : first ≤ place)
    (lt : place < second)
    (feeds : bytes[place]? = some lineFeed) :
    (bytes.take first).count lineFeed < (bytes.take second).count lineFeed := by
  have before : (bytes.take first).count lineFeed ≤
      (bytes.take place).count lineFeed :=
    (List.take_prefix_take_left le).sublist.count_le lineFeed
  have after : (bytes.take (place + 1)).count lineFeed ≤
      (bytes.take second).count lineFeed :=
    (List.take_prefix_take_left lt).sublist.count_le lineFeed
  rw [List.take_add_one, feeds, List.count_append] at after
  have here : (some lineFeed).toList.count lineFeed = 1 := by decide
  omega

variable {bytes : List UInt8} {first second : Nat} {earlier later : Location}

/-- The location of a later offset comes later. -/
theorem IsAt.precedes
    (isFirst : earlier.IsAt bytes first)
    (isSecond : later.IsAt bytes second)
    (order : first < second) :
    earlier.Precedes later := by
  have counts : (bytes.take first).count lineFeed ≤
      (bytes.take second).count lineFeed :=
    (List.take_prefix_take_left (Nat.le_of_lt order)).sublist.count_le lineFeed
  rcases Nat.lt_or_eq_of_le counts with fewer | same
  · exact .inl (by rw [isFirst.line, isSecond.line]; omega)
  · -- Without a line feed between them, both offsets are on one line.
    obtain ⟨start, startLe, column, -, clear⟩ := isFirst.column
    obtain ⟨begin, beginLe, laterColumn, isStart, laterClear⟩ := isSecond.column
    have noLater : begin ≤ start := by
      rcases isStart with rfl | ⟨place, rfl, feeds⟩
      · exact Nat.zero_le start
      · refine Nat.le_of_not_lt fun beyond => ?_
        rcases Nat.lt_or_ge place first with before | behind
        · exact clear place (by omega) before feeds
        · exact absurd same (Nat.ne_of_lt (count_take_lt behind beginLe feeds))
    exact .inr ⟨by rw [isFirst.line, isSecond.line, same], by omega⟩

theorem Precedes.ne (precedes : earlier.Precedes later) : earlier ≠ later := by
  rintro rfl
  rcases precedes with line | ⟨-, column⟩
  · exact Nat.lt_irrefl _ line
  · exact Nat.lt_irrefl _ column

end Location

namespace LineTable

/-- The places after the line feeds among bytes that begin at an offset. -/
def placesAfter (offset : Nat) : List UInt8 → List Nat
  | [] => []
  | byte :: rest =>
      if byte = lineFeed then (offset + 1) :: placesAfter (offset + 1) rest
      else placesAfter (offset + 1) rest

/-- Bytes without a line feed only move what comes after them. -/
theorem placesAfter_append
    {bytes : List UInt8}
    (clear : lineFeed ∉ bytes)
    (offset : Nat)
    (rest : List UInt8) :
    placesAfter offset (bytes ++ rest) =
      placesAfter (offset + bytes.length) rest := by
  induction bytes generalizing offset with
  | nil => rfl
  | cons byte bytes hypothesis =>
      rw [List.mem_cons, not_or] at clear
      rw [List.cons_append, placesAfter, if_neg (Ne.symm clear.1),
        hypothesis clear.2, List.length_cons, Nat.add_right_comm, Nat.add_assoc]

/-- The lines of a text begin after its line feed bytes. -/
theorem startsAfter_eq
    (offset : Nat)
    (text : List Char) :
    startsAfter offset text = placesAfter offset (bytes text) := by
  induction text generalizing offset with
  | nil => rfl
  | cons character rest hypothesis =>
      rw [startsAfter, bytes_cons, hypothesis]
      split
      · next newline =>
          subst newline
          rfl
      · next other =>
          rw [placesAfter_append (lineFeed_notMem_utf8EncodeChar other),
            String.length_utf8EncodeChar]

/-- Where all further lines begin behind the offset, the walk stops. -/
theorem locate_of_le
    {offset position : Nat}
    (le : offset ≤ position)
    (line start : Nat)
    (bytes : List UInt8) :
    locate offset line start (placesAfter position bytes) =
      ⟨line, offset - start + 1⟩ := by
  induction bytes generalizing position with
  | nil => rfl
  | cons byte bytes hypothesis =>
      rw [placesAfter]
      split
      · rw [locate, if_neg (by omega)]
      · exact hypothesis (Nat.le_succ_of_le le)

/--
The place at which the line of some bytes begins that goes on behind them.
-/
structure IsLastStart
    (passed : List UInt8)
    (start : Nat) :
    Prop where
  le : start ≤ passed.length
  begins : start = 0 ∨ ∃ place, start = place + 1 ∧
    passed[place]? = some lineFeed
  clear : ∀ place, start ≤ place → passed[place]? ≠ some lineFeed

theorem isLastStart_nil : IsLastStart [] 0 :=
  ⟨Nat.le_refl 0, .inl rfl, fun _ _ => nofun⟩

/-- A further byte begins a line behind it, or leaves the line as it is. -/
theorem IsLastStart.concat
    {passed : List UInt8}
    {start : Nat}
    (isStart : IsLastStart passed start)
    (byte : UInt8) :
    IsLastStart (passed ++ [byte])
      (if byte = lineFeed then passed.length + 1 else start) := by
  have width : (passed ++ [byte]).length = passed.length + 1 :=
    List.length_append
  split
  · next feeds =>
      refine ⟨Nat.le_of_eq width.symm, .inr ⟨_, rfl, ?_⟩, fun place le => ?_⟩
      · rw [List.getElem?_concat_length, feeds]
      · rw [List.getElem?_eq_none (width ▸ le)]
        nofun
  · next other =>
      refine ⟨Nat.le_trans isStart.le (width ▸ Nat.le_succ _), ?_,
        fun place le => ?_⟩
      · refine isStart.begins.imp_right fun ⟨place, same, feeds⟩ =>
          ⟨place, same, ?_⟩
        rwa [List.getElem?_append_left (List.getElem?_eq_some_iff.mp feeds).1]
      · rcases Nat.lt_trichotomy place passed.length with inside | rfl | beyond
        · rw [List.getElem?_append_left inside]
          exact isStart.clear place le
        · rw [List.getElem?_concat_length]
          exact fun same => other (Option.some.inj same)
        · rw [List.getElem?_eq_none (width ▸ beyond)]
          nofun

/-- An offset behind all bytes that count is on the line that goes on there. -/
theorem isAt_of_take_eq
    {bytes passed : List UInt8}
    {offset start : Nat}
    (taken : bytes.take offset = passed)
    (reached : passed.length ≤ offset)
    (isStart : IsLastStart passed start) :
    Location.IsAt bytes offset
      ⟨1 + passed.count lineFeed, offset - start + 1⟩ := by
  have same {place : Nat} (before : place < offset) :
      bytes[place]? = passed[place]? := by
    rw [← taken, List.getElem?_take_of_lt before]
  refine ⟨by rw [taken], start, Nat.le_trans isStart.le reached,
    Nat.add_comm _ _, ?_, ?_⟩
  · refine isStart.begins.imp_right fun ⟨place, isPlace, feeds⟩ =>
      ⟨place, isPlace, ?_⟩
    have inside := (List.getElem?_eq_some_iff.mp feeds).1
    rwa [same (Nat.lt_of_lt_of_le inside reached)]
  · intro place le before
    rw [same before]
    exact isStart.clear place le

/--
Walking on from a place of the bytes whose line is known, one comes to the
location of an offset.
-/
theorem isAt_locate
    {passed rest : List UInt8}
    {offset start : Nat}
    (reached : passed.length ≤ offset)
    (isStart : IsLastStart passed start) :
    Location.IsAt (passed ++ rest) offset
      (locate offset (1 + passed.count lineFeed) start
        (placesAfter passed.length rest)) := by
  induction rest generalizing passed start with
  | nil =>
      refine isAt_of_take_eq ?_ reached isStart
      rw [List.append_nil, List.take_of_length_le reached]
  | cons byte rest hypothesis =>
      rcases Nat.eq_or_lt_of_le reached with rfl | further
      · rw [locate_of_le (Nat.le_refl _)]
        exact isAt_of_take_eq List.take_left reached isStart
      · have width : (passed ++ [byte]).length = passed.length + 1 :=
          List.length_append
        have onward := hypothesis (Nat.le_trans (Nat.le_of_eq width) further)
            (isStart.concat byte)
        rw [List.append_assoc, width, List.count_append] at onward
        rw [placesAfter]
        split
        · next feeds =>
            subst feeds
            rw [locate, if_pos (show passed.length + 1 ≤ offset from further)]
            exact onward
        · next other =>
            rw [if_neg other, List.count_singleton, if_neg (mt eq_of_beq other)]
              at onward
            exact onward

theorem isAt_location
    (text : List Char)
    (offset : Nat) :
    ((ofText text).location offset).IsAt (bytes text) offset := by
  rw [location, ofText, startsAfter_eq]
  exact isAt_locate (Nat.zero_le offset) isLastStart_nil

/--
A location tells its offset.

The line of an offset is one more than the number of line feeds before it, and
its column is one more than the distance from the place after the last of them,
or from the beginning of the text.  So the location of a later offset is later,
on a later line or on the same line in a later column, and distinct offsets have
distinct locations, within the text and at its end and past it.
-/
theorem location_identifies (text : List Char) :
    let table := ofText text
    (∀ offset,
        (table.location offset).line =
          1 + ((bytes text).take offset).count lineFeed ∧
          ∃ start ≤ offset,
            (table.location offset).column = 1 + (offset - start) ∧
              (start = 0 ∨ ∃ place, start = place + 1 ∧
                (bytes text)[place]? = some lineFeed) ∧
              ∀ place, start ≤ place → place < offset →
                (bytes text)[place]? ≠ some lineFeed) ∧
      (∀ first second, first < second →
        (table.location first).line < (table.location second).line ∨
          (table.location first).line = (table.location second).line ∧
            (table.location first).column < (table.location second).column) ∧
        ∀ first second, first ≠ second →
          table.location first ≠ table.location second := by
  intro table
  have precedes {first second : Nat} (order : first < second) :
      (table.location first).Precedes (table.location second) :=
    (isAt_location text first).precedes (isAt_location text second) order
  refine ⟨fun offset => ?_, fun _ _ => precedes, fun first second differ => ?_⟩
  · have isAt := isAt_location text offset
    exact ⟨isAt.line, isAt.column⟩
  · rcases Nat.lt_or_gt_of_ne differ with before | behind
    · exact (precedes before).ne
    · exact (precedes behind).ne.symm

/--
A line feed belongs to the line that it ends,
and offsets past the end go on counting.
-/
example :
    let table := ofText "é
x
".toList
    [0, 2, 3, 4, 5, 9].map (fun offset => (table.location offset).text) =
      ["1:1", "1:3", "2:1", "2:2", "3:1", "3:5"] := by
  decide +kernel

end LineTable

end Clipper
