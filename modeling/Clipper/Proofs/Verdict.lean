import Mathlib.Algebra.Order.BigOperators.Group.List
import Mathlib.Algebra.Order.Ring.Nat
import Clipper.Proofs.Collection
import Clipper.Proofs.Diagnostics

/-!
# The verdict of a check

A check reads the sources that its arguments name one after another, tells the
user about the first diagnostics of each, and adds up the diagnostics of all.
The sources of readable trees can all be read, so such a check comes to its end;
it fails if and only if some source has errors, and the limit on what is told is
of no account for that.

The limit enters only in the lines that are printed for a file: at most so
many diagnostics, and one line more with the number of those that were left
out.  So a check with any limit has the exit code and the totals of a check
without one.  Readable trees are those in which every file holds a text and
nothing is special.
-/

namespace Clipper

/-! ## Readable trees -/

namespace FileTree

mutual

/-- Whether a tree holds files alone, and all of them have a text. -/
def isReadable : FileTree → Bool
  | file text? => text?.isSome
  | special _ => false
  | directory entries => areReadable entries

/--
Whether below the entries of a directory
there are files alone, and all have a text.
-/
def areReadable : List (String × FileTree) → Bool
  | [] => true
  | (_, tree) :: rest => tree.isReadable && areReadable rest

end

variable (settings : Settings)

mutual

/-- The sources in a readable tree have texts. -/
theorem text_of_mem_sources
    (path : String) :
    ∀ {tree : FileTree}, tree.isReadable = true →
      ∀ source ∈ tree.sources settings path, source.text?.isSome = true
  | file text?, readable, source, member => by
      rw [isReadable] at readable
      rw [sources] at member
      split at member
      · rwa [List.mem_singleton.mp member]
      · cases member
  | special _, readable, _, _ => by
      rw [isReadable] at readable
      cases readable
  | directory entries, readable, source, member => by
      rw [isReadable] at readable
      rw [sources, mem_inNameOrder] at member
      obtain ⟨entry, isEntry, within⟩ := member
      exact text_of_mem_entrySources path readable entry isEntry source within

/-- The sources below the entries of a readable directory have texts. -/
theorem text_of_mem_entrySources
    (path : String) :
    ∀ {entries : List (String × FileTree)}, areReadable entries = true →
      ∀ entry ∈ entrySources settings path entries, ∀ source ∈ entry.2,
        source.text?.isSome = true
  | [], _, entry, member => by
      rw [entrySources] at member
      cases member
  | (name, tree) :: rest, readable, entry, member => by
      rw [areReadable, Bool.and_eq_true] at readable
      rw [entrySources] at member
      rcases List.mem_cons.mp member with rfl | later
      · exact text_of_mem_sources (entryPath path name) readable.1
      · exact text_of_mem_entrySources path readable.2 entry later

end

/--
What an argument names that leads to a readable tree are sources with texts.
-/
theorem exists_named_of_isReadable
    (path : String)
    {tree : FileTree}
    (readable : tree.isReadable = true) :
    ∃ sources, tree.named? settings path = some sources ∧
      ∀ source ∈ sources, source.text?.isSome = true := by
  cases tree with
  | file text? =>
      rw [isReadable] at readable
      exact ⟨_, rfl, List.forall_mem_singleton.mpr readable⟩
  | special text? =>
      rw [isReadable] at readable
      cases readable
  | directory entries =>
      exact ⟨_, rfl, text_of_mem_sources settings path readable⟩

end FileTree

/-! ## The limit -/

/-- Settings with another limit on the diagnostics that are shown. -/
def Settings.withLimit
    (settings : Settings)
    (limit : Nat) :
    Settings :=
  { settings with reportLimit := limit }

namespace FileTree

variable (settings : Settings) (limit : Nat)

mutual

theorem sources_withLimit
    (path : String) :
    ∀ tree : FileTree, tree.sources (settings.withLimit limit) path =
      tree.sources settings path
  | file text? => by rw [sources, sources]; rfl
  | special text? => by rw [sources, sources]; rfl
  | directory entries => by
      rw [sources, sources, entrySources_withLimit path entries]

/--
The limit on diagnostics plays no part in the walk: the same sources are
found with any limit.
-/
theorem entrySources_withLimit
    (path : String) :
    ∀ entries : List (String × FileTree),
      entrySources (settings.withLimit limit) path entries =
        entrySources settings path entries
  | [] => by rw [entrySources, entrySources]
  | (name, tree) :: rest => by
      rw [entrySources, entrySources,
        sources_withLimit (entryPath path name) tree,
        entrySources_withLimit path rest]

end

/-- What an argument names does not depend on the limit. -/
theorem named_withLimit
    (path : String)
    (tree : FileTree) :
    tree.named? (settings.withLimit limit) path =
      tree.named? settings path := by
  cases tree with
  | file text? => rfl
  | special text? => rfl
  | directory entries =>
      exact congrArg some
        (sources_withLimit settings limit path (directory entries))

end FileTree

namespace Check

/-- A source that was read. -/
def textSource (source : String × List Char) : FileTree.Source :=
  ⟨source.1, some source.2⟩

/-- Sources that have texts are sources that were read. -/
theorem exists_textSources
    {sources : List FileTree.Source}
    (readable : ∀ source ∈ sources, source.text?.isSome = true) :
    ∃ texts : List (String × List Char), sources = texts.map textSource := by
  induction sources with
  | nil => exact ⟨[], rfl⟩
  | cons source sources hypothesis =>
      obtain ⟨texts, shape⟩ := hypothesis fun other member =>
        readable other (List.mem_cons_of_mem _ member)
      obtain ⟨text, isText⟩ :=
        Option.isSome_iff_exists.mp (readable source List.mem_cons_self)
      refine ⟨(source.path, text) :: texts, ?_⟩
      rw [shape, List.map_cons, textSource, ← isText]

/--
The lines for a file: the diagnostics that are shown, and how many are not.
-/
theorem diagnosticLines_eq
    (path : String)
    (text : List Char)
    (diagnostics : List Diagnostic)
    (limit : Nat) :
    diagnosticLines path text diagnostics limit =
      let shown :=
        if limit = 0 then diagnostics.length
        else min diagnostics.length limit
      let hidden := diagnostics.length - shown
      (diagnostics.take shown).map
        (diagnosticLine path (LineTable.ofText text)) ++
          (if 0 < hidden then
            [path ++ ": " ++ toString hidden ++ " more diagnostic(s) not shown"]
          else []) := by
  rw [diagnosticLines, shownCount, Nat.min_comm limit]
  dsimp only
  refine congrArg _ ?_
  rw [← ite_not]
  exact if_congr Nat.pos_iff_ne_zero.symm rfl rfl

variable (lookup : Lookup) (settings : Settings)

/-- Arguments that lead to readable trees name sources that can be read. -/
theorem exists_collect
    {paths : List String}
    (readable : ∀ path ∈ paths, ∃ tree, lookup path = some tree ∧
      tree.isReadable = true) :
    ∃ texts : List (String × List Char),
      collect lookup settings paths = .ok (texts.map textSource) := by
  induction paths with
  | nil => exact ⟨[], rfl⟩
  | cons path paths hypothesis =>
      obtain ⟨tree, leads, treeReadable⟩ := readable path List.mem_cons_self
      obtain ⟨others, collected⟩ := hypothesis fun other member =>
        readable other (List.mem_cons_of_mem _ member)
      obtain ⟨sources, named, sourcesReadable⟩ :=
        FileTree.exists_named_of_isReadable settings path treeReadable
      obtain ⟨texts, shape⟩ := exists_textSources sourcesReadable
      refine ⟨texts ++ others, ?_⟩
      rw [collect, leads, Option.bind_some, named]
      dsimp only
      rw [collected, shape, List.map_append]
      rfl

/-- Which sources are collected does not depend on the limit. -/
theorem collect_withLimit
    (limit : Nat)
    (paths : List String) :
    collect lookup (settings.withLimit limit) paths =
      collect lookup settings paths := by
  induction paths with
  | nil => rfl
  | cons path paths hypothesis =>
      rw [collect, collect, hypothesis]
      cases lookup path with
      | none => rfl
      | some tree =>
          rw [Option.bind_some, Option.bind_some, FileTree.named_withLimit]

/-! ## The run -/

/-- The diagnostics of a source that was read. -/
def diagnosticsOf (source : String × List Char) : List Diagnostic :=
  (Analysis.ofText settings.stripDirectives source.2).diagnostics

/-- The lines for a source that was read. -/
def linesOf (source : String × List Char) : List String :=
  diagnosticLines source.1 source.2 (diagnosticsOf settings source)
    settings.reportLimit

/-- The number of all diagnostics of sources that were read. -/
def errorCount (sources : List (String × List Char)) : Nat :=
  (sources.map fun source => (diagnosticsOf settings source).length).sum

/--
Sources that were read are checked to the last one, whatever was found before.
-/
theorem checkAll_textSources
    (sources : List (String × List Char))
    (summary : Summary) :
    checkAll settings summary (sources.map textSource) =
      (⟨summary.lines ++ sources.flatMap (linesOf settings),
        summary.files + sources.length,
        summary.errors + errorCount settings sources⟩, none) := by
  induction sources generalizing summary with
  | nil => simp [checkAll, errorCount]
  | cons source sources hypothesis =>
      rw [List.map_cons, checkAll]
      dsimp only [textSource]
      rw [hypothesis]
      simp only [Summary.add, List.flatMap_cons, List.append_assoc,
        List.length_cons, errorCount, List.map_cons, List.sum_cons,
        Nat.add_assoc, Nat.add_comm 1]
      rfl

/-- No diagnostics are counted if and only if no source has errors. -/
theorem errorCount_eq_zero_iff (sources : List (String × List Char)) :
    errorCount settings sources = 0 ↔
      ∀ source ∈ sources,
        ¬ (Analysis.ofText settings.stripDirectives source.2).hasErrors =
          true := by
  rw [errorCount, List.sum_eq_zero_iff, List.forall_mem_map]
  refine forall₂_congr fun source _ => ?_
  rw [Analysis.hasErrors_iff_diagnostics, not_not, List.length_eq_zero_iff,
    diagnosticsOf]

/-- A check of sources that can be read comes to its end. -/
theorem runCheck_textSources
    {paths : List String}
    {sources : List (String × List Char)}
    (collected : collect lookup settings paths = .ok (sources.map textSource)) :
    Session.runCheck lookup settings paths =
      .finished (errorCount settings sources == 0) []
        (sources.flatMap (linesOf settings) ++
          [Summary.text ⟨[], sources.length,
            errorCount settings sources⟩]) := by
  rw [Session.runCheck, collected]
  dsimp only
  rw [checkAll_textSources]
  simp only [Summary.none, List.nil_append, Nat.zero_add]
  rfl

end Check

/--
The verdict of a check does not depend on the limit on what is told.

Let all arguments lead to trees whose files have texts.  Then the arguments name
sources that are read, the same for every limit.  With any limit, the check
exits with a failure if and only if some source has errors.  It tells of each
source, in order, as many of its diagnostics as the limit allows, with their
lines and columns, and how many more there are if there are more; zero stands
for no limit. At the end it tells the number of sources and the number of all
their diagnostics.
-/
theorem verdict_of_check
    (lookup : Lookup)
    (settings : Settings)
    (paths : List String)
    (readable : ∀ path ∈ paths, ∃ tree, lookup path = some tree ∧
      tree.isReadable = true) :
    ∃ sources : List (String × List Char),
      ∀ limit,
        let outcome := Session.runCommand lookup (settings.withLimit limit)
            (.check paths)
        let analysis := fun text =>
            Analysis.ofText settings.stripDirectives text
        let errors :=
          (sources.map fun source => (analysis source.2).diagnostics.length).sum
        Check.collect lookup (settings.withLimit limit) paths =
            .ok (sources.map fun source => ⟨source.1, some source.2⟩) ∧
          outcome.code =
            (if ∃ source ∈ sources, (analysis source.2).hasErrors then 1
              else 0) ∧
          outcome.lines =
            (sources.flatMap fun source =>
              let diagnostics := (analysis source.2).diagnostics
              let shown :=
                if limit = 0 then diagnostics.length
                else min diagnostics.length limit
              let hidden := diagnostics.length - shown
              (diagnostics.take shown).map (fun diagnostic =>
                let place := (LineTable.ofText source.2).location
                    diagnostic.span.start
                source.1 ++ ":" ++
                  (toString place.line ++ ":" ++ toString place.column) ++
                    ": " ++
                  diagnostic.message) ++
                (if 0 < hidden then
                  [source.1 ++ ": " ++ toString hidden ++
                    " more diagnostic(s) not shown"]
                else [])) ++
              ["checked " ++ toString sources.length ++ " file(s): " ++
                toString errors ++
                " error(s)"] := by
  obtain ⟨sources, collected⟩ := Check.exists_collect lookup settings readable
  refine ⟨sources, fun limit => ?_⟩
  intro outcome analysis errors
  have capped := (Check.collect_withLimit lookup settings limit paths).trans
      collected
  have run := Check.runCheck_textSources lookup
      (settings.withLimit limit) capped
  refine ⟨capped, ?_, ?_⟩
  · have failing := Check.errorCount_eq_zero_iff
        (settings.withLimit limit) sources
    change (Session.runCheck lookup (settings.withLimit limit) paths).code = _
    rw [run, Session.Outcome.code]
    by_cases none : Check.errorCount (settings.withLimit limit) sources = 0
    · rw [if_pos (beq_iff_eq.mpr none), if_neg fun ⟨source, member, errors⟩ =>
        failing.mp none source member errors]
    · rw [if_neg fun same => none (beq_iff_eq.mp same), if_pos]
      by_contra clean
      exact none (failing.mpr fun source member errors =>
        clean ⟨source, member, errors⟩)
  · change (Session.runCheck lookup (settings.withLimit limit) paths).lines = _
    rw [run, Session.Outcome.lines]
    refine congrArg₂ (· ++ ·) (List.flatMap_congr fun source _ => ?_) rfl
    exact Check.diagnosticLines_eq source.1 source.2
      (analysis source.2).diagnostics limit

/-- A directory with one broken source fails the check with every limit. -/
theorem verdict_of_check_directory :
    let source := FileTree.file (some "ENDIF\n".toList)
    let lookup := FileTree.lookup
      (.directory [("src", .directory [("a.prg", source)])])
    (∀ path ∈ ["src"], ∃ tree, lookup path = some tree ∧
      tree.isReadable = true) ∧
      ∀ limit,
        let settings := Settings.standard.withLimit limit
        (Session.runCommand lookup settings (.check ["src"])).code = 1 := by
  intro source lookup
  have leads : lookup "src" = some (.directory [("a.prg", source)]) := by rfl
  have readable : ∀ path ∈ ["src"], ∃ tree, lookup path = some tree ∧
      tree.isReadable = true := by
    intro path member
    rw [List.mem_singleton.mp member]
    exact ⟨_, leads, by rfl⟩
  refine ⟨readable, fun limit => ?_⟩
  have collected :
      Check.collect lookup .standard ["src"] =
        .ok [⟨"src/a.prg", some "ENDIF\n".toList⟩] := by
    have path : FileTree.entryPath "src" "a.prg" = "src/a.prg" := by
      decide +kernel
    have isSource : Path.isSource .standard "src/a.prg".toList = true := by
      decide +kernel
    rw [Check.collect, leads, Option.bind_some, FileTree.named?]
    simp only [Check.collect, FileTree.sources, FileTree.entrySources, path]
    rw [show source = .file (some "ENDIF\n".toList) from rfl, FileTree.sources,
      if_pos isSource, FileTree.inNameOrder, List.mergeSort_singleton]
    rfl
  obtain ⟨sources, checked⟩ :=
    verdict_of_check lookup .standard ["src"] readable
  obtain ⟨same, code, -⟩ := checked limit
  rw [Check.collect_withLimit, collected, Except.ok.injEq] at same
  obtain ⟨broken, rfl, isBroken⟩ := List.map_eq_singleton_iff.mp same.symm
  have text : broken.2 = "ENDIF\n".toList :=
    Option.some.inj (congrArg FileTree.Source.text? isBroken)
  have fails :
      (Analysis.ofText Settings.standard.stripDirectives broken.2).hasErrors =
        true := by
    rw [text]
    decide +kernel
  exact code.trans (if_pos ⟨broken, List.mem_singleton_self broken, fails⟩)

end Clipper
