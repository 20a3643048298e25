import Clipper.Proofs.Source.Width

/-!
# The bytes of a text

Offsets count the bytes of a text in UTF-8.  A line feed is written as one byte,
and that byte is part of no other character.

Columns are told by bytes, and lines by line feeds, so the two views of a text
have to be brought together: the text as characters, and the text as bytes.  A
byte of a character that is written with several bytes is at least 128, and a
character of one byte is its own number.  Hence a line feed among the bytes is
a line feed among the characters.
-/

namespace Clipper.Source

/-- The bytes of a text in UTF-8. -/
def bytes (text : List Char) : List UInt8 :=
  text.flatMap String.utf8EncodeChar

@[simp]
theorem bytes_append
    (first second : List Char) :
    bytes (first ++ second) = bytes first ++ bytes second :=
  List.flatMap_append

theorem bytes_cons
    (character : Char)
    (rest : List Char) :
    bytes (character :: rest) = String.utf8EncodeChar character ++ bytes rest :=
  List.flatMap_cons

@[simp]
theorem length_bytes (text : List Char) :
    (bytes text).length = byteWidth text := by
  induction text with
  | nil => rfl
  | cons character rest hypothesis =>
      rw [bytes_cons, List.length_append, String.length_utf8EncodeChar,
        hypothesis, byteWidth_cons]

/-- The byte of a line feed. -/
def lineFeed : UInt8 :=
  10

/--
The bytes of a character that has several are
marked: they are too great for a line feed.
-/
theorem lineFeed_ne_marked
    {value mark : Nat}
    (high : 128 ≤ mark)
    (low : value + mark < 256) :
    lineFeed ≠ UInt8.ofNat (value + mark) := by
  intro same
  have number := congrArg UInt8.toNat same
  rw [UInt8.toNat_ofNat', Nat.mod_eq_of_lt low] at number
  have small : lineFeed.toNat = 10 := rfl
  omega

/--
The byte of a line feed is none of the bytes of another character.  The cases
are the numbers of bytes with which a character is written.
-/
theorem lineFeed_notMem_utf8EncodeChar
    {character : Char}
    (other : character ≠ '\n') :
    lineFeed ∉ String.utf8EncodeChar character := by
  have code : character.val.toNat ≠ 10 :=
    fun same => other (Char.toNat_inj.mp same)
  unfold String.utf8EncodeChar
  dsimp only
  split
  · next small =>
      intro member
      have number := congrArg UInt8.toNat (List.mem_singleton.mp member)
      rw [UInt8.toNat_ofNat', Nat.mod_eq_of_lt (by omega)] at number
      exact code number.symm
  · split
    · simp only [List.mem_cons, List.not_mem_nil, or_false, not_or]
      refine ⟨?_, ?_⟩ <;> exact lineFeed_ne_marked (by omega) (by omega)
    · split
      · simp only [List.mem_cons, List.not_mem_nil, or_false, not_or]
        refine ⟨?_, ?_, ?_⟩ <;> exact lineFeed_ne_marked (by omega) (by omega)
      · simp only [List.mem_cons, List.not_mem_nil, or_false, not_or]
        refine ⟨?_, ?_, ?_, ?_⟩ <;>
          exact lineFeed_ne_marked (by omega) (by omega)

end Clipper.Source
