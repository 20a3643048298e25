import Clipper.FileTree
import Clipper.Proofs.Source.LongestRun

/-!
# Components of the paths of entries

The path of a directory's entry has the components of the directory's path and,
at their end, the name of the entry; whether it is the path of a source is told
by that name.

The paths of the program are texts, and the extension of a file is cut out of
its path.  The proofs about walks speak of names instead, and this module is
the bridge: a name is a text without slashes that is neither empty nor a dot
or two dots, and joining it to a path adds one component.  The extension is
what stands behind the last dot of the name, unless the dot is its first
character.
-/

namespace Clipper

open Source

/-- The name of an entry of a directory. -/
structure IsName (name : String) : Prop where
  nonempty : name ≠ ""
  noSlash : '/' ∉ name.toList
  notHere : name ≠ "."
  notParent : name ≠ ".."

/--
A name that ends in a dot and an extension that the settings name, in upper or
lower case; before the dot stands something.
-/
def HasSourceExtension
    (settings : Settings)
    (name : String) : Prop :=
  ∃ stem extension,
    name.toList = stem ++ '.' :: extension ∧ stem ≠ [] ∧ '.' ∉ extension ∧
      ∃ allowed ∈ settings.extensions,
        sameIgnoringCase (String.ofList extension) allowed = true

namespace Path

/-! ## Components -/

/-- A path has at least one piece, if only an empty one. -/
theorem pieces_ne_nil (path : List Char) : pieces path ≠ [] := by
  cases path with
  | nil => exact List.cons_ne_nil _ _
  | cons character rest =>
      unfold pieces
      split
      · exact List.cons_ne_nil _ _
      · split
        · exact List.cons_ne_nil _ _
        · exact List.cons_ne_nil _ _

/--
A slash ends a piece: the pieces before it and the pieces behind
it are put together.
-/
theorem pieces_append_slash
    (path more : List Char) :
    pieces (path ++ '/' :: more) = pieces path ++ pieces more := by
  induction path with
  | nil => rfl
  | cons character path hypothesis =>
      rw [List.cons_append, pieces, pieces, hypothesis]
      split
      · rfl
      · cases shape : pieces path with
        | nil => exact absurd shape (pieces_ne_nil path)
        | cons piece later => rfl

theorem pieces_of_noSlash
    {name : List Char}
    (noSlash : '/' ∉ name) :
    pieces name = [name] := by
  induction name with
  | nil => rfl
  | cons character name hypothesis =>
      rw [List.mem_cons, not_or] at noSlash
      rw [pieces, if_neg (Ne.symm noSlash.1), hypothesis noSlash.2]

/-- A name behind a slash is one component more. -/
theorem components_append_slash
    (path : List Char)
    {name : String}
    (isName : IsName name) :
    components (path ++ '/' :: name.toList) =
      components path ++ [name.toList] := by
  rw [components, components, pieces_append_slash,
    pieces_of_noSlash isName.noSlash]
  cases shape : pieces path with
  | nil => exact absurd shape (pieces_ne_nil path)
  | cons first rest =>
      have nonempty : name.toList.isEmpty = false := by
        refine Bool.eq_false_iff.mpr fun none => isName.nonempty ?_
        exact String.toList_injective (List.isEmpty_iff.mp none)
      have notHere : (name.toList != ['.']) = true :=
        bne_iff_ne.mpr fun here => isName.notHere (String.toList_injective here)
      dsimp only [List.cons_append]
      rw [List.filter_append, List.filter_cons, nonempty, notHere,
        List.append_assoc]
      rfl

/-- A slash at the end of a path is of no account. -/
theorem components_concat_slash (path : List Char) :
    components (path ++ ['/']) = components path := by
  rw [components, components, pieces_append_slash]
  cases shape : pieces path with
  | nil => exact absurd shape (pieces_ne_nil path)
  | cons first rest => simp [pieces]

/--
The path of an entry has one component more than the path of its directory,
which is the name of the entry.
-/
theorem components_entryPath
    (path : String)
    {name : String}
    (isName : IsName name) :
    components (FileTree.entryPath path name).toList =
      components path.toList ++ [name.toList] := by
  rw [FileTree.entryPath]
  split
  · next ends =>
      rw [← String.endsWith_toSlice, String.Slice.endsWith_string_iff,
        String.copy_toSlice] at ends
      obtain ⟨front, shape⟩ := ends
      have slash : "/".toList = ['/'] := rfl
      rw [String.toList_append, ← shape, slash, List.append_assoc,
        List.singleton_append, components_append_slash front isName,
        components_concat_slash]
  · rw [String.toList_append, String.toList_append, List.append_assoc]
    exact components_append_slash path.toList isName

/-- The path that some names lead to from a directory. -/
theorem components_foldl_entryPath
    (path : String)
    {names : List String}
    (areNames : ∀ name ∈ names, IsName name) :
    components (names.foldl FileTree.entryPath path).toList =
      components path.toList ++ names.map String.toList := by
  induction names generalizing path with
  | nil => exact (List.append_nil _).symm
  | cons name names hypothesis =>
      rw [List.foldl_cons,
        hypothesis _ fun other member =>
          areNames other (List.mem_cons_of_mem name member),
        components_entryPath path (areNames name List.mem_cons_self),
        List.append_assoc]
      rfl

/-! ## Extensions -/

/--
The extension is what stands behind the last dot, and there is one only if
something stands before that dot.
-/
theorem extensionOf?_eq_some_iff {name extension : List Char} :
    extensionOf? name = some extension ↔
      ∃ stem, name = stem ++ '.' :: extension ∧ stem ≠ [] ∧
        '.' ∉ extension := by
  rw [extensionOf?, Option.ite_none_right_eq_some, Option.some.injEq]
  constructor
  · rintro ⟨long, same⟩
    rw [same] at long
    obtain ⟨whole, inside, outside⟩ :=
      takeWhile_dropWhile_reverse_iff.mp ⟨same, rfl⟩
    rcases List.eq_nil_or_concat (name.reverse.dropWhile (· != '.')).reverse
      with
        none | ⟨stem, last, shape⟩
    · rw [none, List.nil_append] at whole
      rw [whole] at long
      omega
    · rw [shape, List.concat_eq_append] at whole outside
      have isDot : last = '.' := by
        have fails := outside last (List.getLast?_concat ..)
        simpa using fails
      rw [isDot, List.append_assoc] at whole
      refine ⟨stem, whole, ?_, fun member => ?_⟩
      · rintro rfl
        rw [whole] at long
        simp at long
      · have passes := inside '.' member
        simp at passes
  · rintro ⟨stem, rfl, nonempty, noDot⟩
    have run :
        ((stem ++ '.' :: extension).reverse.takeWhile (· != '.')).reverse =
          extension := by
      have whole : stem ++ '.' :: extension = (stem ++ ['.']) ++ extension := by
        rw [List.append_assoc]
        rfl
      refine (takeWhile_dropWhile_reverse_iff.mpr ⟨whole, ?_, ?_⟩).1
      · exact fun character member =>
          bne_iff_ne.mpr fun same => noDot (same ▸ member)
      · intro last isLast
        rw [List.getLast?_concat] at isLast
        obtain rfl : '.' = last := Option.some.inj isLast
        rfl
    have long := List.length_pos_iff.mpr nonempty
    rw [run, List.length_append, List.length_cons]
    exact ⟨by omega, rfl⟩

/-- An entry of a directory is a source by its name alone. -/
theorem isSource_entryPath_iff
    (settings : Settings)
    (path : String)
    {name : String}
    (isName : IsName name) :
    isSource settings (FileTree.entryPath path name).toList = true ↔
      HasSourceExtension settings name := by
  have fileName :
      fileName? (FileTree.entryPath path name).toList = some name.toList := by
    rw [fileName?, components_entryPath path isName, List.getLast?_concat]
    split
    · next here =>
        exact absurd (String.toList_injective (Option.some.inj here))
          isName.notHere
    · next up =>
        exact absurd (String.toList_injective (Option.some.inj up))
          isName.notParent
    · rfl
  rw [isSource, extension?, fileName, Option.bind_some]
  constructor
  · intro allows
    split at allows
    · next extension found =>
        obtain ⟨stem, shape, nonempty, noDot⟩ :=
          extensionOf?_eq_some_iff.mp found
        exact ⟨stem, extension, shape, nonempty, noDot,
          List.any_eq_true.mp allows⟩
    · cases allows
  · rintro ⟨stem, extension, shape, nonempty, noDot, allowed⟩
    rw [extensionOf?_eq_some_iff.mpr ⟨stem, shape, nonempty, noDot⟩]
    exact List.any_eq_true.mpr allowed

end Path

end Clipper
