import Mathlib.Data.List.Forall2
import Clipper.Proofs.PathComponents
import Clipper.Session

/-!
# The sources that arguments name

A walk of a directory tree finds each source in it once, and in the order of the
paths, component by component: siblings are put in the order of their names, and
what a subdirectory holds stands in its place.  An argument names itself if it
leads to a file, and the sources of a walk if it leads to a directory; if one
leads to nothing, nothing is checked.

The walk is described by two relations, so that nothing of its recursion shows
in the statements: `Leads` follows names downwards to an entry, and `Names`
says what an argument stands for.  An entry that is neither a file nor a
directory is a special one.  The walk asks an entry for its extension only, so
a special entry with a source's name is among the sources, although an
argument that names it by itself leads to none.
-/

namespace Clipper

namespace FileTree

/-! ## Trees -/

/-- What stands in a tree under some names, one below the other. -/
inductive Leads : FileTree → List String → FileTree → Prop
  | here (tree : FileTree) :
      Leads tree [] tree
  | entry {entries : List (String × FileTree)} {name : String}
      {inner found : FileTree} {names : List String}
      (member : (name, inner) ∈ entries) (leads : Leads inner names found) :
      Leads (directory entries) (name :: names) found

/--
A tree whose directories have entries with
names, and none with the same name as another.
-/
inductive IsProper : FileTree → Prop
  | file (text? : Option (List Char)) :
      IsProper (file text?)
  | special (text? : Option (List Char)) :
      IsProper (special text?)
  | directory (entries : List (String × FileTree))
      (distinct : (entries.map Prod.fst).Nodup)
      (named : ∀ entry ∈ entries, IsName entry.1)
      (inner : ∀ entry ∈ entries, IsProper entry.2) :
      IsProper (directory entries)

/--
In a proper tree, every step of a way down is the name of an entry.  So
the steps stay apart when they are joined to a path, and the path can
be taken apart again.
-/
theorem IsProper.isName_of_leads
    {tree found : FileTree}
    {names : List String}
    (proper : tree.IsProper)
    (leads : tree.Leads names found) :
    ∀ name ∈ names, IsName name := by
  induction leads with
  | here tree => exact fun _ member => (nomatch member)
  | entry member leads hypothesis =>
      cases proper with
      | directory entries distinct named inner =>
          rw [List.forall_mem_cons]
          exact ⟨named _ member, hypothesis (inner _ member)⟩

variable (settings : Settings)

/-! ## The sources of a tree -/

/--
The sources of entries are found for each of them alone, under the path of the
directory and the name of the entry.
-/
theorem entrySources_eq_map
    (path : String)
    (entries : List (String × FileTree)) :
    entrySources settings path entries =
      entries.map fun entry =>
        (entry.1, entry.2.sources settings (entryPath path entry.1)) := by
  induction entries with
  | nil => rw [entrySources, List.map_nil]
  | cons entry entries hypothesis =>
      obtain ⟨name, tree⟩ := entry
      rw [entrySources, hypothesis, List.map_cons]

theorem mem_inNameOrder
    {Item : Type}
    {named : List (String × List Item)}
    {item : Item} :
    item ∈ inNameOrder named ↔ ∃ entry ∈ named, item ∈ entry.2 := by
  simp only [inNameOrder, List.mem_flatMap, List.mem_mergeSort]

/-- The sources of a directory are those of its entries. -/
theorem mem_sources_directory_iff
    {path : String}
    {entries : List (String × FileTree)}
    {source : Source} :
    source ∈ (directory entries).sources settings path ↔
      ∃ name inner, (name, inner) ∈ entries ∧
        source ∈ inner.sources settings (entryPath path name) := by
  rw [sources, mem_inNameOrder, entrySources_eq_map]
  constructor
  · rintro ⟨entry, member, isSource⟩
    obtain ⟨⟨name, inner⟩, isEntry, rfl⟩ := List.mem_map.mp member
    exact ⟨name, inner, isEntry, isSource⟩
  · rintro ⟨name, inner, isEntry, isSource⟩
    exact ⟨_, List.mem_map_of_mem isEntry, isSource⟩

/-- A file or a special entry, with the text that is read from it, if one is. -/
inductive IsLeaf (text? : Option (List Char)) : FileTree → Prop
  | file :
      IsLeaf text? (file text?)
  | special :
      IsLeaf text? (special text?)

/--
What is no directory is the one source there is
where it stands, if its path is that of a source.
-/
theorem IsLeaf.mem_sources_iff
    {tree : FileTree}
    {text? : Option (List Char)}
    (leaf : IsLeaf text? tree)
    {path : String}
    {source : Source} :
    source ∈ tree.sources settings path ↔
      Path.isSource settings path.toList = true ∧ source = ⟨path, text?⟩ := by
  have one : tree.sources settings path =
      if Path.isSource settings path.toList then [⟨path, text?⟩] else [] := by
    cases leaf with
    | file => rw [sources]
    | special => rw [sources]
  rw [one]
  split
  · next isSource => rw [List.mem_singleton, and_iff_right isSource]
  · next other =>
      exact ⟨fun member => (nomatch member), fun both => absurd both.1 other⟩

/-- From what is no directory nothing leads further. -/
theorem IsLeaf.leads_iff
    {tree found : FileTree}
    {text? : Option (List Char)}
    {names : List String}
    (leaf : IsLeaf text? tree) :
    tree.Leads names found ↔ names = [] ∧ found = tree := by
  constructor
  · intro leads
    cases leaf with
    | file =>
        cases leads with
        | here => exact ⟨rfl, rfl⟩
    | special =>
        cases leads with
        | here => exact ⟨rfl, rfl⟩
  · rintro ⟨rfl, rfl⟩
    exact .here _

/--
The sources of a tree are the entries to which it leads that are no directories
and whose paths are those of sources.
-/
theorem mem_sources_iff
    {tree : FileTree}
    (proper : tree.IsProper)
    (path : String)
    (source : Source) :
    source ∈ tree.sources settings path ↔
      ∃ names entry text?, tree.Leads names entry ∧ IsLeaf text? entry ∧
        Path.isSource settings (names.foldl entryPath path).toList = true ∧
        source = ⟨names.foldl entryPath path, text?⟩ := by
  have ofLeaf {tree : FileTree} {text? : Option (List Char)}
      (leaf : IsLeaf text? tree) (path : String) :
      source ∈ tree.sources settings path ↔
        ∃ names entry text?, tree.Leads names entry ∧ IsLeaf text? entry ∧
          Path.isSource settings (names.foldl entryPath path).toList = true ∧
          source = ⟨names.foldl entryPath path, text?⟩ := by
    constructor
    · intro member
      obtain ⟨isSource, shape⟩ := (leaf.mem_sources_iff settings).mp member
      exact ⟨[], tree, text?, .here tree, leaf, isSource, shape⟩
    · rintro ⟨names, entry, text?, leads, entryLeaf, isSource, shape⟩
      obtain ⟨rfl, rfl⟩ := leaf.leads_iff.mp leads
      exact (entryLeaf.mem_sources_iff settings).mpr ⟨isSource, shape⟩
  induction proper generalizing path with
  | file text? => exact ofLeaf .file path
  | special text? => exact ofLeaf .special path
  | directory entries distinct named inner hypothesis =>
      rw [mem_sources_directory_iff]
      constructor
      · rintro ⟨name, tree, isEntry, member⟩
        obtain ⟨names, entry, text?, leads, leaf, isSource, rfl⟩ :=
          (hypothesis (name, tree) isEntry (entryPath path name)).mp member
        exact ⟨name :: names, entry, text?, .entry isEntry leads, leaf,
          isSource, rfl⟩
      · rintro ⟨names, entry, text?, leads, leaf, isSource, rfl⟩
        cases leads with
        | here => cases leaf
        | entry isEntry leads =>
            exact ⟨_, _, isEntry,
              (hypothesis _ isEntry _).mpr
                ⟨_, entry, text?, leads, leaf, isSource, rfl⟩⟩

/--
The sources of a directory, told by the names of its entries: the extension of
the last name on the way to an entry decides.
-/
theorem mem_sources_of_directory
    {entries : List (String × FileTree)}
    (proper : (directory entries).IsProper)
    (path : String)
    (source : Source) :
    source ∈ (directory entries).sources settings path ↔
      ∃ names name entry text?,
        (directory entries).Leads (names ++ [name]) entry ∧ IsLeaf text? entry ∧
          HasSourceExtension settings name ∧
          source = ⟨(names ++ [name]).foldl entryPath path, text?⟩ := by
  rw [mem_sources_iff settings proper path source]
  have named {names : List String} {name : String} {entry : FileTree}
      (leads : (directory entries).Leads (names ++ [name]) entry) :
      Path.isSource settings ((names ++ [name]).foldl entryPath path).toList =
        true ↔
        HasSourceExtension settings name := by
    rw [List.foldl_concat]
    refine Path.isSource_entryPath_iff settings _ ?_
    exact proper.isName_of_leads leads name
      (List.mem_append_right _ (List.mem_singleton_self _))
  constructor
  · rintro ⟨names, entry, text?, leads, leaf, isSource, rfl⟩
    rcases List.eq_nil_or_concat names with rfl | ⟨names, name, rfl⟩
    · cases leads
      cases leaf
    · rw [List.concat_eq_append] at leads isSource ⊢
      exact ⟨names, name, entry, text?, leads, leaf,
        (named leads).mp isSource, rfl⟩
  · rintro ⟨names, name, entry, text?, leads, leaf, extension, rfl⟩
    exact ⟨names ++ [name], entry, text?, leads, leaf,
      (named leads).mpr extension, rfl⟩

/-! ## The order of sources -/

/--
Named values stand in the strict order of their names, if no two have one name.
-/
theorem pairwise_mergeSort_names
    {Item : Type}
    {named : List (String × Item)}
    (distinct : (named.map Prod.fst).Nodup) :
    (named.mergeSort (fun first second => decide (first.1 ≤ second.1))).Pairwise
      (fun first second => first.1 < second.1) := by
  let inOrder (first second : String × Item) : Bool :=
    decide (first.1 ≤ second.1)
  have transitive (first second third : String × Item)
      (earlier : inOrder first second = true)
      (later : inOrder second third = true) :
      inOrder first third = true :=
    decide_eq_true
      (String.le_trans (of_decide_eq_true earlier) (of_decide_eq_true later))
  have total (first second : String × Item) :
      (inOrder first second || inOrder second first) = true := by
    simpa [inOrder] using String.le_total first.1 second.1
  have sorted := List.pairwise_mergeSort transitive total named
  have apart :
      (named.mergeSort (fun first second =>
        decide (first.1 ≤ second.1))).Pairwise
          (fun first second => first.1 ≠ second.1) :=
    List.pairwise_map.mp
      (((List.mergeSort_perm named _).map Prod.fst).nodup_iff.mpr distinct)
  refine (sorted.and apart).imp fun ⟨before, differ⟩ => ?_
  exact String.not_le.mp fun after =>
    differ (String.le_antisymm (of_decide_eq_true before) after)

/-- The components of the path of a source. -/
def Source.components (source : Source) : List (List Char) :=
  Path.components source.path.toList

/--
The components of a source's path: those of
the directory, and the names that lead to it.
-/
theorem exists_components_of_mem
    {tree : FileTree}
    (proper : tree.IsProper)
    {path : String}
    {source : Source}
    (member : source ∈ tree.sources settings path) :
    ∃ names : List String,
      source.components = Path.components path.toList ++
        names.map String.toList := by
  obtain ⟨names, entry, text?, leads, -, -, rfl⟩ :=
    (mem_sources_iff settings proper path source).mp member
  exact ⟨names, Path.components_foldl_entryPath path
    (proper.isName_of_leads leads)⟩

/--
What stands below an entry comes before what stands below one with a later name.
-/
theorem components_lt_of_names_lt
    (path : String)
    {first second : String × FileTree}
    (firstProper : first.2.IsProper)
    (secondProper : second.2.IsProper)
    (firstNamed : IsName first.1)
    (secondNamed : IsName second.1)
    (order : first.1 < second.1)
    {earlier later : Source}
    (isEarlier : earlier ∈ first.2.sources settings (entryPath path first.1))
    (isLater : later ∈ second.2.sources settings (entryPath path second.1)) :
    earlier.components < later.components := by
  obtain ⟨below, shape⟩ :=
    exists_components_of_mem settings firstProper isEarlier
  obtain ⟨others, otherShape⟩ :=
    exists_components_of_mem settings secondProper isLater
  rw [shape, otherShape, Path.components_entryPath path firstNamed,
    Path.components_entryPath path secondNamed, List.append_assoc,
    List.append_assoc]
  exact List.append_left_lt (List.cons_lt_cons_iff.mpr (.inl order))

/-- The sources of a tree stand in the order of their paths. -/
theorem pairwise_sources
    {tree : FileTree}
    (proper : tree.IsProper)
    (path : String) :
    (tree.sources settings path).Pairwise
      (fun first second => first.components < second.components) := by
  induction proper generalizing path with
  | file text? | special text? =>
      rw [sources]
      split
      · exact List.pairwise_singleton _ _
      · exact .nil
  | directory entries distinct named inner hypothesis =>
      rw [sources, entrySources_eq_map, inNameOrder, List.pairwise_flatMap]
      constructor
      · intro group member
        obtain ⟨entry, isEntry, rfl⟩ :=
          List.mem_map.mp (List.mem_mergeSort.mp member)
        exact hypothesis entry isEntry (entryPath path entry.1)
      · have names : ((entries.map fun entry =>
            (entry.1, entry.2.sources settings (entryPath path entry.1))).map
            Prod.fst).Nodup := by
          rwa [List.map_map]
        refine (pairwise_mergeSort_names names).imp_of_mem ?_
        intro first second isFirst isSecond order earlier isEarlier
          later isLater
        obtain ⟨entry, isEntry, rfl⟩ :=
          List.mem_map.mp (List.mem_mergeSort.mp isFirst)
        obtain ⟨other, isOther, rfl⟩ :=
          List.mem_map.mp (List.mem_mergeSort.mp isSecond)
        exact components_lt_of_names_lt settings path (inner _ isEntry)
          (inner _ isOther)
          (named _ isEntry) (named _ isOther) order isEarlier isLater

end FileTree

/-! ## The sources of a list of arguments -/

namespace Check

variable (lookup : Lookup) (settings : Settings)

/--
What an argument names: the file to which
it leads, or the sources in the directory.
-/
inductive Names (path : String) : List FileTree.Source → Prop
  | file {text? : Option (List Char)}
      (leads : lookup path = some (.file text?)) :
      Names path [⟨path, text?⟩]
  | directory {entries : List (String × FileTree)}
      (leads : lookup path = some (.directory entries)) :
      Names path ((FileTree.directory entries).sources settings path)

/-- An argument can be named if it leads to a file or to a directory. -/
def Found (path : String) : Prop :=
  (∃ text?, lookup path = some (.file text?)) ∨
    ∃ entries, lookup path = some (.directory entries)

variable {lookup settings}

/--
What an argument names is what the walk makes of the entry to which it
leads.  The argument leads to nothing, or to a special entry, if and only
if it names nothing.
-/
theorem names_iff
    {path : String}
    {sources : List FileTree.Source} :
    Names lookup settings path sources ↔
      (lookup path).bind (FileTree.named? settings path) = some sources := by
  constructor
  · rintro (leads | leads)
    · rw [leads]
      rfl
    · rw [leads]
      rfl
  · intro named
    cases leads : lookup path with
    | none => rw [leads] at named; cases named
    | some tree =>
        rw [leads] at named
        cases tree with
        | file text? =>
            obtain rfl := Option.some.inj named
            exact .file leads
        | special text? => cases named
        | directory entries =>
            obtain rfl := Option.some.inj named
            exact .directory leads

/--
An argument that leads neither to a file nor to a directory names nothing.
-/
theorem named?_eq_none_iff {path : String} :
    (lookup path).bind (FileTree.named? settings path) = none ↔
    ¬ Found lookup path := by
  cases leads : lookup path with
  | none => exact iff_of_true rfl (by simp [Found, leads])
  | some tree =>
      cases tree with
      | file text? =>
          exact iff_of_false nofun (not_not.mpr (.inl ⟨text?, leads⟩))
      | special text? => exact iff_of_true rfl (by simp [Found, leads])
      | directory entries =>
          exact iff_of_false nofun (not_not.mpr (.inr ⟨entries, leads⟩))

/--
Arguments that all lead to something name
their sources, one argument after the other.
-/
theorem collect_eq_ok_iff
    {paths : List String}
    {sources : List FileTree.Source} :
    collect lookup settings paths = .ok sources ↔
      ∃ groups, List.Forall₂ (Names lookup settings) paths groups ∧
        sources = groups.flatten := by
  induction paths generalizing sources with
  | nil =>
      rw [collect, Except.ok.injEq]
      constructor
      · rintro rfl
        exact ⟨[], .nil, rfl⟩
      · rintro ⟨groups, ⟨⟩, rfl⟩
        rfl
  | cons path paths hypothesis =>
      rw [collect]
      constructor
      · intro collected
        split at collected
        · cases collected
        · next first named =>
            cases rest : collect lookup settings paths with
            | error failure =>
                rw [rest] at collected
                cases collected
            | ok others =>
                rw [rest] at collected
                obtain ⟨groups, namesAll, rfl⟩ := hypothesis.mp rest
                refine ⟨first :: groups, .cons (names_iff.mpr named) namesAll,
                  ?_⟩
                exact (Except.ok.inj collected).symm
      · rintro ⟨_, namesAll, rfl⟩
        cases namesAll with
        | cons first others =>
            rw [names_iff.mp first]
            dsimp only
            rw [hypothesis.mpr ⟨_, others, rfl⟩]
            rfl

/--
The first argument that leads neither to a file nor to a directory is what the
collection fails with.
-/
theorem collect_eq_error_iff
    {paths : List String}
    {failure : Failure} :
    collect lookup settings paths = .error failure ↔
      ∃ before missing after,
        paths = before ++ missing :: after ∧
          (∀ path ∈ before, Found lookup path) ∧
          ¬ Found lookup missing ∧ failure = .missing missing := by
  induction paths with
  | nil => simp [collect]
  | cons path paths hypothesis =>
      rw [collect]
      cases named : (lookup path).bind (FileTree.named? settings path) with
      | none =>
          have notFound := named?_eq_none_iff.mp named
          constructor
          · intro failed
            exact ⟨[], path, paths, rfl, fun _ member =>
              (nomatch member), notFound,
                (Except.error.inj failed).symm⟩
          · rintro ⟨before, missing, after, split, found, -, rfl⟩
            cases before with
            | nil => rw [(List.cons.inj split).1]
            | cons first before =>
                have isFound := found first List.mem_cons_self
                rw [← (List.cons.inj split).1] at isFound
                exact absurd isFound notFound
      | some sources =>
          have pathFound : Found lookup path := by
            by_contra notFound
            have unnamed :
                (lookup path).bind (FileTree.named? settings path) = none :=
              named?_eq_none_iff.mpr notFound
            rw [named] at unnamed
            exact nomatch unnamed
          have onRest :
              (do
                let others ← collect lookup settings paths
                .ok (sources ++ others)) = Except.error failure ↔
                collect lookup settings paths = .error failure := by
            cases collect lookup settings paths with
            | error other => exact Iff.rfl
            | ok others =>
                exact ⟨fun same => (nomatch same), fun same => (nomatch same)⟩
          dsimp only
          rw [onRest, hypothesis]
          constructor
          · rintro ⟨before, missing, after, rfl, found, notFound, rfl⟩
            refine ⟨path :: before, missing, after, rfl, ?_, notFound, rfl⟩
            exact List.forall_mem_cons.mpr ⟨pathFound, found⟩
          · rintro ⟨before, missing, after, split, found, notFound, rfl⟩
            cases before with
            | nil =>
                rw [(List.cons.inj split).1] at pathFound
                exact absurd pathFound notFound
            | cons first before =>
                exact ⟨before, missing, after, (List.cons.inj split).2,
                  (List.forall_mem_cons.mp found).2, notFound, rfl⟩

/--
If the collection fails, nothing is checked, whatever stands at the other paths.
-/
theorem runCheck_of_collect_eq_error
    {other : Lookup}
    {paths : List String}
    {failure : Failure}
    (failed : collect lookup settings paths = .error failure)
    (alike : ∀ path, Found other path ↔ Found lookup path) :
    Session.runCheck other settings paths = .failed [] (.check failure) := by
  obtain ⟨before, missing, after, shape, found, notFound, rfl⟩ :=
    collect_eq_error_iff.mp failed
  have otherFailed : collect other settings paths =
      .error (.missing missing) := by
    refine collect_eq_error_iff.mpr ⟨before, missing, after, shape, ?_, ?_, rfl⟩
    · exact fun path member => (alike path).mpr (found path member)
    · exact mt (alike missing).mp notFound
  rw [Session.runCheck, otherFailed]

end Check

open FileTree

/--
The sources of a directory tree are the entries at any depth below it that are
no directories and whose names end in an extension that the settings name, in
upper or lower case; each is found once, and they stand in the order of their
paths, component by component.  In a tree without special entries they are the
files with such names.

Arguments name, in their order, the file to which they lead, whatever its name,
or the sources of the directory.  The collection fails if and only if some
argument leads neither to a file nor to a directory; then the check ends without
a line, whatever stands at the other paths.
-/
theorem sources_of_arguments (settings : Settings) :
    (∀ path entries, (directory entries).IsProper →
      (∀ source, source ∈ (directory entries).sources settings path ↔
        ∃ names name entry text?,
          (directory entries).Leads (names ++ [name]) entry ∧
            IsLeaf text? entry ∧
            HasSourceExtension settings name ∧
            source = ⟨(names ++ [name]).foldl entryPath path, text?⟩) ∧
      ((∀ names text?, ¬ (directory entries).Leads names (special text?)) →
        ∀ source, source ∈ (directory entries).sources settings path ↔
          ∃ names name text?,
            (directory entries).Leads (names ++ [name]) (file text?) ∧
              HasSourceExtension settings name ∧
              source = ⟨(names ++ [name]).foldl entryPath path, text?⟩) ∧
      ((directory entries).sources settings path).Pairwise (fun first second =>
        Path.components first.path.toList <
          Path.components second.path.toList) ∧
      (((directory entries).sources settings path).map Source.path).Nodup) ∧
    ∀ lookup paths,
      (∀ sources, Check.collect lookup settings paths = .ok sources ↔
        ∃ groups, List.Forall₂ (Check.Names lookup settings) paths groups ∧
          sources = groups.flatten) ∧
      (∀ failure, Check.collect lookup settings paths = .error failure ↔
        ∃ before missing after,
          paths = before ++ missing :: after ∧
            (∀ path ∈ before, Check.Found lookup path) ∧
            ¬ Check.Found lookup missing ∧ failure = .missing missing) ∧
      ∀ failure, Check.collect lookup settings paths = .error failure →
        ∀ other : Lookup,
          (∀ path, Check.Found other path ↔ Check.Found lookup path) →
          Session.runCheck other settings paths =
            .failed [] (.check failure) := by
  refine ⟨fun path entries proper => ?_, fun lookup paths =>
    ⟨fun sources => Check.collect_eq_ok_iff, fun failure =>
      Check.collect_eq_error_iff, ?_⟩⟩
  · have whole := mem_sources_of_directory settings proper path
    refine ⟨whole, fun noSpecial source => (whole source).trans ?_, ?_, ?_⟩
    · constructor
      · rintro ⟨names, name, entry, text?, leads, leaf, extension, shape⟩
        cases leaf with
        | file => exact ⟨names, name, text?, leads, extension, shape⟩
        | special => exact absurd leads (noSpecial _ _)
      · rintro ⟨names, name, text?, leads, extension, shape⟩
        exact ⟨names, name, _, text?, leads, .file, extension, shape⟩
    · exact pairwise_sources settings proper path
    · refine List.pairwise_map.mpr
        ((pairwise_sources settings proper path).imp ?_)
      intro first second before same
      rw [Source.components, Source.components, same] at before
      exact List.lt_irrefl _ before
  · exact fun failure failed other alike =>
      Check.runCheck_of_collect_eq_error failed alike

/--
A directory with the name of a source is walked;
an argument that leads to nothing is told.
-/
theorem sources_of_arguments_nested :
    let entries :=
      [("b.PRG", file (some [])), ("a.prg", directory [("c.prg", file none)])]
    (directory entries).IsProper ∧
      (∀ names text?, ¬ (directory entries).Leads names (special text?)) ∧
      (⟨"d/a.prg/c.prg", none⟩ : Source) ∈
        (directory entries).sources .standard "d" ∧
      Session.runCheck (fun _ => none) .standard ["e"] =
        .failed [] (.check (.missing "e")) := by
  intro entries
  have isName (name : String) (letter : name ∈ ["a.prg", "b.PRG", "c.prg"]) :
      IsName name := by
    revert name
    simp only [List.forall_mem_cons]
    refine ⟨?_, ?_, ?_, fun _ member => (nomatch member)⟩ <;>
      exact ⟨by decide, by decide, by decide, by decide⟩
  have proper : (directory entries).IsProper := by
    refine .directory entries (by decide) (List.forall_mem_cons.mpr ⟨?_, ?_⟩)
      (List.forall_mem_cons.mpr ⟨.file _, List.forall_mem_singleton.mpr ?_⟩)
    · exact isName "b.PRG" (by decide)
    · exact List.forall_mem_singleton.mpr (isName "a.prg" (by decide))
    · refine .directory _ (by decide) (List.forall_mem_singleton.mpr ?_)
        (List.forall_mem_singleton.mpr (.file none))
      exact isName "c.prg" (by decide)
  have noSpecial (names : List String) (text? : Option (List Char)) :
      ¬ (directory entries).Leads names (special text?) := by
    intro leads
    rcases leads with _ | ⟨member, leads⟩
    rcases List.mem_cons.mp member with isFirst | isSecond
    · obtain ⟨-, rfl⟩ := Prod.mk.inj isFirst
      cases leads
    · obtain ⟨-, rfl⟩ := Prod.mk.inj (List.mem_singleton.mp isSecond)
      rcases leads with _ | ⟨member, leads⟩
      obtain ⟨-, rfl⟩ := Prod.mk.inj (List.mem_singleton.mp member)
      cases leads
  refine ⟨proper, noSpecial, ?_, ?_⟩
  · refine (((sources_of_arguments .standard).1 "d" entries proper).2.1
      noSpecial _).mpr
      ⟨["a.prg"], "c.prg", none, ?_, ?_, ?_⟩
    · exact .entry (List.mem_cons_of_mem _ List.mem_cons_self)
        (.entry List.mem_cons_self (.here _))
    · exact ⟨['c'], ['p', 'r', 'g'], by
        decide, by decide, by decide, "prg", by decide,
          by decide +kernel⟩
    · refine congrArg (Source.mk · none) ?_
      decide +kernel
  · have arguments := (sources_of_arguments .standard).2 (fun _ => none) ["e"]
    have notFound : ¬ Check.Found (fun _ => none) "e" := by
      rintro (⟨_, ⟨⟩⟩ | ⟨_, ⟨⟩⟩)
    have failed := (arguments.2.1 (.missing "e")).mpr
      ⟨[], "e", [], rfl, fun _ member => (nomatch member), notFound, rfl⟩
    exact arguments.2.2 _ failed _ fun _ => Iff.rfl

/--
A special entry with the name of a source is taken for one, though no file
stands in the tree; named by an argument itself, it is refused.
-/
theorem sources_special :
    let entries := [("x.prg", special none)]
    (directory entries).IsProper ∧
      (∀ names text?, ¬ (directory entries).Leads names (file text?)) ∧
      (⟨"d/x.prg", none⟩ : Source) ∈ (directory entries).sources .standard "d" ∧
      Session.runCheck (directory entries).lookup .standard ["x.prg"] =
        .failed [] (.check (.missing "x.prg")) := by
  intro entries
  have isName : IsName "x.prg" := ⟨by decide, by decide, by decide, by decide⟩
  refine ⟨?_, ?_, ?_, by rfl⟩
  · exact .directory _ (by decide) (List.forall_mem_singleton.mpr isName)
      (List.forall_mem_singleton.mpr (.special none))
  · intro names text? leads
    rcases leads with _ | ⟨member, leads⟩
    obtain ⟨-, rfl⟩ := Prod.mk.inj (List.mem_singleton.mp member)
    cases leads
  · refine (mem_sources_directory_iff .standard).mpr
      ⟨"x.prg", special none, List.mem_singleton_self _, ?_⟩
    refine (IsLeaf.special.mem_sources_iff .standard).mpr
      ⟨by decide +kernel, ?_⟩
    refine congrArg (Source.mk · none) ?_
    decide +kernel

end Clipper
