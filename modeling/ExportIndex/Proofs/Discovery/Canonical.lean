import ExportIndex.CommandLine.Run
import ExportIndex.Proofs.Discovery.Sources
import ExportIndex.Proofs.Index.Renaming

/-!
# The list of sources is canonical

What is found depends on the set of the arguments: neither their order nor their repetitions show in
the list, but for the spelling of its paths, and the spelling shows in no declaration of the index.

* `components_eq_of_findSources` — arguments with the same members find the same paths.
* `readSources_of_components` — files read alike under every spelling.
* `findSources_canonical` puts this together with what is known of one list of arguments.
-/

namespace ExportIndex
namespace Discovery

open CommandLine (readSources)

variable {tree : FileTree} {extensions arguments others found found' : List String}

/-- Arguments with the same members find the same paths, up to their spelling. -/
theorem components_eq_of_findSources
    (hmembers : ∀ argument, argument ∈ arguments ↔ argument ∈ others)
    (h : (findSources tree extensions arguments).result = .ok found)
    (h' : (findSources tree extensions others).result = .ok found') :
    found.map Path.components = found'.map Path.components := by
  refine Path.components_eq_of_mem_iff (increasing_findSources h) (increasing_findSources h') ?_
  intro places
  rw [mem_findSources_iff h, mem_findSources_iff h']
  simp only [hmembers]

/-- Reading succeeds if every source can be read, and keeps their order. -/
theorem readSources_cons_eq_ok_iff {path : String} {sources : List Source} :
    readSources tree (path :: found) = .ok sources ↔ ∃ text later,
      tree.read path = .ok text ∧ readSources tree found = .ok later ∧
        sources = ⟨path, text⟩ :: later := by
  rw [readSources]
  cases tree.read path with
  | error fault => simp
  | ok text => cases readSources tree found <;> simp [Except.map, eq_comm]

/-- Files are read alike under every spelling of their paths. -/
theorem readSources_of_components {sources : List Source}
    (hfiles : ∀ path ∈ found, tree.isFile path = true)
    (hfiles' : ∀ path ∈ found', tree.isFile path = true)
    (hcomponents : found.map Path.components = found'.map Path.components)
    (hread : readSources tree found = .ok sources) :
    ∃ sources', readSources tree found' = .ok sources' ∧
      sources.map (Source.labelled Path.components) =
        sources'.map (Source.labelled Path.components) := by
  induction found generalizing found' sources with
  | nil =>
      obtain rfl := List.map_eq_nil_iff.1 hcomponents.symm
      exact ⟨sources, hread, rfl⟩
  | cons path found ih =>
      obtain ⟨path', found', rfl, hpath, hrest⟩ := List.map_eq_cons_iff.1 hcomponents.symm
      rw [List.forall_mem_cons] at hfiles hfiles'
      obtain ⟨text, later, htext, hlater, rfl⟩ := readSources_cons_eq_ok_iff.1 hread
      obtain ⟨later', hlater', hlabels⟩ := ih hfiles.2 hfiles'.2 hrest.symm hlater
      have htext' : tree.read path' = .ok text := by
        rw [FileTree.read_eq_of_components hpath hfiles'.1 hfiles.1, htext]
      refine ⟨_, readSources_cons_eq_ok_iff.2 ⟨text, later', htext', hlater', rfl⟩, ?_⟩
      rw [List.map_cons, List.map_cons, hlabels, Source.labelled, Source.labelled, hpath]

/-- The sources that are found form a list in order, complete and free of repetitions.  There is one
exactly when every argument that names neither a file nor a directory can be read as a pattern.  Hence
arguments in another order or with repetitions find the same paths, and in a proper tree the same
declaration stays of a name that several of the files declare. -/
theorem findSources_canonical (tree : FileTree) (extensions arguments : List String) :
    ((∃ found, (findSources tree extensions arguments).result = .ok found) ↔
      ∀ argument ∈ arguments, tree.isFile argument = false → tree.isDirectory argument = false →
        ∃ glob : Glob, glob.IsReadFrom argument) ∧
    (∀ found, (findSources tree extensions arguments).result = .ok found →
      found.Pairwise (fun a b => Path.compare a b = .lt) ∧
      found.Pairwise (fun a b => Path.same a b = false) ∧
      ∀ path, (∃ member ∈ found, Path.same member path = true) ↔
        ∃ argument ∈ arguments, ∃ file, StandsFor tree extensions argument file ∧
          Path.same file path = true) ∧
    ∀ others : List String, (∀ argument, argument ∈ arguments ↔ argument ∈ others) →
      ((∃ found, (findSources tree extensions arguments).result = .ok found) ↔
        ∃ found, (findSources tree extensions others).result = .ok found) ∧
      ∀ found found', (findSources tree extensions arguments).result = .ok found →
        (findSources tree extensions others).result = .ok found' →
        found.map Path.components = found'.map Path.components ∧
        (tree.root.isProper = true →
          (∀ path ∈ found, tree.isFile path = true) ∧
          ∀ jobs sources index, readSources tree found = .ok sources →
            Index.build jobs sources = .ok index →
            ∃ sources' index', readSources tree found' = .ok sources' ∧
              Index.build jobs sources' = .ok index' ∧
              index.declarations = index'.declarations ∧
              ∀ name, index.get? name = index'.get? name ∧
                (index.origin? name).map Path.components =
                  (index'.origin? name).map Path.components) := by
  refine ⟨exists_findSources_iff, fun found h => ?_, fun others hmembers => ?_⟩
  · have hincreasing := increasing_findSources h
    refine ⟨hincreasing, hincreasing.imp fun hlt => ?_, fun path => ?_⟩
    · exact Path.same_eq_false_iff.2 (Path.components_ne_of_lt hlt)
    · simp only [Path.same_iff]
      exact mem_findSources_iff h (Path.components path)
  · refine ⟨?_, fun found found' h h' => ?_⟩
    · rw [exists_findSources_iff, exists_findSources_iff]
      simp only [hmembers]
    · have hcomponents := components_eq_of_findSources hmembers h h'
      refine ⟨hcomponents, fun hproper => ?_⟩
      have hfiles (path) : path ∈ found → tree.isFile path = true :=
        isFile_of_mem_findSources hproper h
      have hfiles' (path) : path ∈ found' → tree.isFile path = true :=
        isFile_of_mem_findSources hproper h'
      refine ⟨hfiles, fun jobs sources index hread hbuild => ?_⟩
      obtain ⟨sources', hread', hlabels⟩ :=
        readSources_of_components hfiles hfiles' hcomponents hread
      obtain ⟨index', hbuild', hentries⟩ := Index.build_of_labelled hlabels hbuild
      exact ⟨sources', index', hread', hbuild', Index.declarations_of_labelled hentries,
        Index.answers_of_labelled hentries⟩

/-- A file that is named with two slashes, met below a directory and found by a pattern is in the list
once, spelled as it comes first, and its declaration of `f` stays. -/
theorem findSources_canonical_respelled :
    let void : CType := ⟨"void", "void", 0, .none, .empty⟩
    let a : Node := .file "// [[export]]\nint f()\n".toUTF8
    let b : Node := .file "// [[export]]\nvoid f()\n".toUTF8
    let tree : FileTree := ⟨.directory [("src", .directory
      [("a.cpp", a), ("Makefile", a), ("sub", .directory [("b.CC", b)])])], []⟩
    let arguments := ["/src//sub/b.CC", "/src", "/src/*/[!a].C?"]
    let others := ["/src/*/[!a].C?", "/src", "/src//sub/b.CC", "/src//sub/b.CC"]
    let found := ["/src/a.cpp", "/src//sub/b.CC"]
    let found' := ["/src/a.cpp", "/src/sub/b.CC"]
    (findSources tree ["cpp", "cc"] arguments).result = .ok found ∧
      (findSources tree ["cpp", "cc"] others).result = .ok found' ∧
      (∃ glob : Glob, glob.IsReadFrom "/src/*/[!a].C?" ∧ glob.Finds tree "/src/sub/b.CC") ∧
      tree.root.isProper = true ∧
      ∃ sources index, readSources tree found = .ok sources ∧ Index.build 2 sources = .ok index ∧
        index.get? "f" = some ⟨"f", 2, void, []⟩ ∧
        ∃ sources' index', readSources tree found' = .ok sources' ∧
          Index.build 2 sources' = .ok index' ∧ index'.get? "f" = some ⟨"f", 2, void, []⟩ := by
  intro void a b tree arguments others found found'
  have hbelow : filesOf tree ["cpp", "cc"] "/src" = .ok ["/src/a.cpp", "/src/sub/b.CC"] := by
    have hfile : tree.isFile "/src" = false := by decide +kernel
    have hdirectory : tree.isDirectory "/src" = true := by decide +kernel
    have hnode : tree.node? "/src" = some (.directory
        [("a.cpp", a), ("Makefile", a), ("sub", .directory [("b.CC", b)])]) := rfl
    have ha : isWanted ["cpp", "cc"] "a.cpp" = true :=
      isWanted_iff.2 ⟨"a", "cpp", "cpp", by decide, by decide, rfl, by simp, rfl⟩
    have hmake : isWanted ["cpp", "cc"] "Makefile" = false := by decide +kernel
    have hcase : "cc".toLower = "CC".toLower := by
      change "cc".map Char.toLower = "CC".map Char.toLower
      rw [← String.toList_inj, String.toList_map, String.toList_map]
      rfl
    have hb : isWanted ["cpp", "cc"] "b.CC" = true :=
      isWanted_iff.2 ⟨"b", "CC", "cc", by decide, by decide, rfl, by simp, hcase⟩
    simp only [filesOf, hfile, hdirectory, filesBelow, hnode, Node.descendants, Node.descendantsOf]
    simp [a, b, Node.isDirectory, ha, hmake, hb]
    decide +kernel
  have hnamed : filesOf tree ["cpp", "cc"] "/src//sub/b.CC" = .ok ["/src//sub/b.CC"] := by
    decide +kernel
  let glob : Glob := ⟨"/", Glob.legsOf [⟨"src", [.literal 's', .literal 'r', .literal 'c']⟩, ⟨"*", [.anyRun]⟩,
    ⟨"[!a].C?", [.charClass true [.single 'a'], .literal '.', .literal 'C', .anyChar]⟩], false⟩
  have hglob : Glob.ofString "/src/*/[!a].C?" = .ok glob := by decide +kernel
  have hfind : "/src/sub/b.CC" ∈ glob.find tree := by decide +kernel
  have hmatching : filesOf tree ["cpp", "cc"] "/src/*/[!a].C?" = .ok ["/src/sub/b.CC"] := by
    decide +kernel
  have hgreater : Path.compare "/src//sub/b.CC" "/src/a.cpp" = .gt := by decide +kernel
  have hgreater' : Path.compare "/src/sub/b.CC" "/src/a.cpp" = .gt := by decide +kernel
  have hequal : Path.compare "/src//sub/b.CC" "/src/sub/b.CC" = .eq := by decide +kernel
  have hequal' : Path.compare "/src/sub/b.CC" "/src//sub/b.CC" = .eq := by decide +kernel
  have hself : Path.compare "/src//sub/b.CC" "/src//sub/b.CC" = .eq := by decide +kernel
  have hself' : Path.compare "/src/sub/b.CC" "/src/sub/b.CC" = .eq := by decide +kernel
  have hless : Path.compare "/src/a.cpp" "/src/sub/b.CC" = .lt := by decide +kernel
  have hless' : Path.compare "/src/a.cpp" "/src//sub/b.CC" = .lt := by decide +kernel
  have hfound : (findSources tree ["cpp", "cc"] arguments).result = .ok found := by
    refine findSources_eq_ok_iff.2 ⟨_, search_cons_eq_ok_iff.2 ⟨_, _, hnamed,
      search_cons_eq_ok_iff.2 ⟨_, _, hbelow,
        search_cons_eq_ok_iff.2 ⟨_, _, hmatching, rfl, rfl⟩, rfl⟩, rfl⟩, ?_⟩
    simp [Path.sortDistinct, List.mergeSort, hgreater, hequal, hself', hless]
    decide +kernel
  have hfound' : (findSources tree ["cpp", "cc"] others).result = .ok found' := by
    refine findSources_eq_ok_iff.2 ⟨_, search_cons_eq_ok_iff.2 ⟨_, _, hmatching,
      search_cons_eq_ok_iff.2 ⟨_, _, hbelow,
        search_cons_eq_ok_iff.2 ⟨_, _, hnamed,
          search_cons_eq_ok_iff.2 ⟨_, _, hnamed, rfl, rfl⟩, rfl⟩, rfl⟩, rfl⟩, ?_⟩
    simp [Path.sortDistinct, List.mergeSort, hgreater', hequal', hself, hself', hless, hless']
    decide +kernel
  have hproper : tree.root.isProper = true := by decide +kernel
  have hread : readSources tree found = .ok [⟨"/src/a.cpp", "// [[export]]\nint f()\n"⟩,
      ⟨"/src//sub/b.CC", "// [[export]]\nvoid f()\n"⟩] := by
    decide +kernel
  have hbuild : Index.build 2 [⟨"/src/a.cpp", "// [[export]]\nint f()\n"⟩,
      ⟨"/src//sub/b.CC", "// [[export]]\nvoid f()\n"⟩] =
        .ok ⟨[⟨"/src//sub/b.CC", ⟨"f", 2, void, []⟩⟩], List.pairwise_singleton ..⟩ := by
    decide +kernel
  obtain ⟨-, -, hothers⟩ := findSources_canonical tree ["cpp", "cc"] arguments
  obtain ⟨-, hsame⟩ := hothers others (by simp [arguments, others]; grind)
  obtain ⟨-, hwins⟩ := hsame found found' hfound hfound'
  obtain ⟨sources', index', hread', hbuild', -, hanswers⟩ :=
    (hwins hproper).2 2 _ _ hread hbuild
  exact ⟨hfound, hfound', ⟨_, Glob.ofString_eq_ok_iff.1 hglob, Glob.mem_find_iff.1 hfind⟩, hproper, _, _,
    hread, hbuild, rfl, sources', index', hread', hbuild', (hanswers "f").1.symm⟩

end Discovery
end ExportIndex
