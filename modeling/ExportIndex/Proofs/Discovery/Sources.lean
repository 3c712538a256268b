import Mathlib.Data.List.TakeDrop
import Mathlib.Data.List.TakeWhile
import ExportIndex.Discovery
import ExportIndex.Proofs.FileTree.Resolution
import ExportIndex.Proofs.Glob.Finding
import ExportIndex.Proofs.Glob.Reading

/-!
# The sources that arguments stand for

What a search collects is decided argument by argument, and its order and its repetitions are lost
when the result is put in order.

* `HasEnding` says of a name, and `StandsFor` of an argument, without a search, what is wanted.
* `filesOf_cases`, `exists_filesOf_iff` and `mem_of_filesOf` — one argument; `exists_search_iff` and
  `mem_of_search` — a list of them.
* `exists_findSources_iff`, `increasing_findSources` and `mem_findSources_iff` — the result.
-/

namespace ExportIndex

/-- The ending of a name is what stands behind its last dot, if the name has a stem before that. -/
theorem Path.extension?_eq_some_iff {name ending : String} :
    Path.extension? name = some ending ↔
      '.' ∉ ending.toList ∧ ∃ stem, stem ≠ "" ∧ name = stem ++ "." ++ ending := by
  rw [Path.extension?, List.span_eq_takeWhile_dropWhile]
  constructor
  · intro h
    have hparts := List.takeWhile_append_dropWhile (p := (· != '.')) (l := name.toList.reverse)
    have hfree : ∀ c ∈ name.toList.reverse.takeWhile (· != '.'), c ≠ '.' := fun c hc => by
      simpa using List.mem_takeWhile_imp hc
    split at h
    · rename_i last c rest hspan
      obtain ⟨hlast, hdrop⟩ := Prod.mk.inj hspan
      rw [hlast, hdrop] at hparts
      rw [hlast] at hfree
      obtain rfl := Option.some.inj h
      refine ⟨fun hdot => ?_, String.ofList (c :: rest).reverse, by simp, ?_⟩
      · rw [String.toList_ofList, List.mem_reverse] at hdot
        exact hfree '.' hdot rfl
      · rw [← String.toList_inj, ← List.reverse_inj, ← hparts]
        simp [String.toList_append]
    · contradiction
  · rintro ⟨hfree, stem, hstem, rfl⟩
    have htext : (stem ++ "." ++ ending).toList.reverse =
        ending.toList.reverse ++ '.' :: stem.toList.reverse := by
      simp [String.toList_append]
    have hkept : ∀ c ∈ ending.toList.reverse, (c != '.') = true := fun c hc =>
      bne_iff_ne.2 fun heq => hfree (heq ▸ List.mem_reverse.1 hc)
    have hne : stem.toList.reverse ≠ [] := by simpa using hstem
    obtain ⟨c, rest, hrest⟩ := List.exists_cons_of_ne_nil hne
    rw [htext, hrest, List.takeWhile_append_of_pos hkept, List.dropWhile_append_of_pos hkept]
    simp

namespace Discovery

/-- A name ends in a dot and one of the wanted endings, up to the case of ASCII letters, and
something stands before the dot. -/
def HasEnding (extensions : List String) (name : String) : Prop :=
  ∃ stem ending wanted : String, stem ≠ "" ∧ '.' ∉ ending.toList ∧ name = stem ++ "." ++ ending ∧
    wanted ∈ extensions ∧ wanted.toLower = ending.toLower

/-- What an argument stands for: the file it names, the files with a wanted ending below the directory
it names, or, if it names neither, the files that it finds as a pattern. -/
inductive StandsFor (tree : FileTree) (extensions : List String) (argument : String) :
    String → Prop where
  | file (h : tree.isFile argument = true) : StandsFor tree extensions argument argument
  | below {entries : List (String × Node)} {names : List String} {name : String}
      {content : ByteArray} (hdirectory : tree.node? argument = some (.directory entries))
      (hbelow : Node.Below (.directory entries) names (.file content))
      (hname : names.getLast? = some name) (hending : HasEnding extensions name) :
      StandsFor tree extensions argument (names.foldl Path.join argument)
  | matching {glob : Glob} {path : String} (hfile : tree.isFile argument = false)
      (hdirectory : tree.isDirectory argument = false) (hglob : glob.IsReadFrom argument)
      (hfound : glob.Finds tree path) (hpath : tree.isFile path = true) :
      StandsFor tree extensions argument path

variable {tree : FileTree} {extensions arguments : List String} {argument path : String}

theorem isWanted_iff {name : String} :
    isWanted extensions name = true ↔ HasEnding extensions name := by
  rw [isWanted, Option.any_eq_true]
  simp only [List.any_eq_true, beq_iff_eq, Path.extension?_eq_some_iff]
  constructor
  · rintro ⟨ending, ⟨hfree, stem, hstem, hname⟩, wanted, hwanted, heq⟩
    exact ⟨stem, ending, wanted, hstem, hfree, hname, hwanted, heq⟩
  · rintro ⟨stem, ending, wanted, hstem, hfree, hname, hwanted, heq⟩
    exact ⟨ending, ⟨hfree, stem, hstem, hname⟩, wanted, hwanted, heq⟩

/-! ### What an argument stands for -/

theorem standsFor_iff_of_isFile (h : tree.isFile argument = true) :
    StandsFor tree extensions argument path ↔ path = argument := by
  constructor
  · intro hstands
    cases hstands with
    | file => rfl
    | below hdirectory =>
        have hisDirectory := FileTree.isDirectory_iff.2 ⟨_, hdirectory⟩
        rw [FileTree.isFile_eq_false_of_isDirectory hisDirectory] at h
        contradiction
    | matching hnot =>
        rw [h] at hnot
        contradiction
  · rintro rfl
    exact .file h

theorem standsFor_iff_of_directory {entries : List (String × Node)}
    (h : tree.node? argument = some (.directory entries)) :
    StandsFor tree extensions argument path ↔ ∃ names name content,
      Node.Below (.directory entries) names (.file content) ∧ names.getLast? = some name ∧
        HasEnding extensions name ∧ path = names.foldl Path.join argument := by
  have hdirectory := FileTree.isDirectory_iff.2 ⟨entries, h⟩
  constructor
  · intro hstands
    cases hstands with
    | file hfile =>
        rw [FileTree.isFile_eq_false_of_isDirectory hdirectory] at hfile
        contradiction
    | below hother hbelow hname hending =>
        rw [h] at hother
        obtain rfl := Node.directory.inj (Option.some.inj hother)
        exact ⟨_, _, _, hbelow, hname, hending, rfl⟩
    | matching _ hnot =>
        rw [hdirectory] at hnot
        contradiction
  · rintro ⟨names, name, content, hbelow, hname, hending, rfl⟩
    exact .below h hbelow hname hending

theorem standsFor_iff_of_pattern {glob : Glob} (hfile : tree.isFile argument = false)
    (hdirectory : tree.isDirectory argument = false) (hglob : Glob.ofString argument = .ok glob) :
    StandsFor tree extensions argument path ↔ path ∈ glob.find tree ∧ tree.isFile path = true := by
  constructor
  · intro hstands
    cases hstands with
    | file h =>
        rw [hfile] at h
        contradiction
    | below h =>
        rw [FileTree.isDirectory_iff.2 ⟨_, h⟩] at hdirectory
        contradiction
    | matching _ _ hother hfound hpath =>
        rw [← Glob.ofString_eq_ok_iff, hglob] at hother
        injection hother with hother
        exact ⟨hother ▸ Glob.mem_find_iff.2 hfound, hpath⟩
  · rintro ⟨hfound, hpath⟩
    exact .matching hfile hdirectory (Glob.ofString_eq_ok_iff.1 hglob) (Glob.mem_find_iff.1 hfound) hpath

/-! ### One argument -/

theorem mem_filesBelow_iff {entries : List (String × Node)}
    (hdirectory : tree.node? argument = some (.directory entries)) :
    path ∈ filesBelow tree extensions argument ↔ StandsFor tree extensions argument path := by
  rw [standsFor_iff_of_directory hdirectory, filesBelow, hdirectory]
  simp only [List.mem_map, List.mem_filter, Bool.and_eq_true, isWanted_iff, Node.mem_descendants_iff]
  constructor
  · rintro ⟨⟨path, name, node⟩, ⟨⟨names, hbelow, hname, hpath⟩, hfile, hending⟩, rfl⟩
    cases node with
    | directory entries => contradiction
    | file content => exact ⟨names, name, content, hbelow, hname, hending, hpath⟩
  · rintro ⟨names, name, content, hbelow, hname, hending, hpath⟩
    exact ⟨⟨path, name, .file content⟩, ⟨⟨names, hbelow, hname, hpath⟩, rfl, hending⟩, rfl⟩

/-- An argument is refused only as a pattern. -/
theorem exists_filesOf_iff (extensions : List String) :
    (∃ files, filesOf tree extensions argument = .ok files) ↔
      (tree.isFile argument = false → tree.isDirectory argument = false →
        ∃ glob : Glob, glob.IsReadFrom argument) := by
  simp only [← Glob.ofString_eq_ok_iff]
  unfold filesOf filesMatching
  cases tree.isFile argument with
  | true => simp
  | false =>
      cases tree.isDirectory argument with
      | true => simp
      | false => cases Glob.ofString argument <;> simp

/-- What an argument was taken for, with the files it gave. -/
theorem filesOf_cases {files : List String} (h : filesOf tree extensions argument = .ok files) :
    (tree.isFile argument = true ∧ files = [argument]) ∨
      (tree.isDirectory argument = true ∧ files = filesBelow tree extensions argument) ∨
        tree.isFile argument = false ∧ tree.isDirectory argument = false ∧
          ∃ glob, Glob.ofString argument = .ok glob ∧
            files = (glob.find tree).filter tree.isFile := by
  unfold filesOf filesMatching at h
  cases hfile : tree.isFile argument with
  | true =>
      rw [if_pos hfile] at h
      injection h with h
      exact .inl ⟨rfl, h.symm⟩
  | false =>
      rw [if_neg (Bool.eq_false_iff.1 hfile)] at h
      cases hdirectory : tree.isDirectory argument with
      | true =>
          rw [if_pos hdirectory] at h
          injection h with h
          exact .inr (.inl ⟨rfl, h.symm⟩)
      | false =>
          rw [if_neg (Bool.eq_false_iff.1 hdirectory)] at h
          split at h
          · contradiction
          · rename_i glob hglob
            injection h with h
            exact .inr (.inr ⟨rfl, rfl, glob, hglob, h.symm⟩)

theorem mem_of_filesOf {files : List String} (h : filesOf tree extensions argument = .ok files) :
    path ∈ files ↔ StandsFor tree extensions argument path := by
  obtain ⟨hfile, rfl⟩ | ⟨hdirectory, rfl⟩ | ⟨hfile, hdirectory, glob, hglob, rfl⟩ := filesOf_cases h
  · rw [standsFor_iff_of_isFile hfile, List.mem_singleton]
  · obtain ⟨entries, hentries⟩ := FileTree.isDirectory_iff.1 hdirectory
    exact mem_filesBelow_iff hentries
  · rw [standsFor_iff_of_pattern hfile hdirectory hglob, List.mem_filter]

/-! ### A list of arguments -/

/-- A search succeeds if every argument does, and collects the files of each. -/
theorem search_cons_eq_ok_iff {met : List String} :
    (search tree extensions (argument :: arguments)).result = .ok met ↔ ∃ files later,
      filesOf tree extensions argument = .ok files ∧
        (search tree extensions arguments).result = .ok later ∧ met = files ++ later := by
  rw [search]
  cases filesOf tree extensions argument with
  | error bad => simp
  | ok files =>
      simp only [cons]
      cases (search tree extensions arguments).result with
      | error bad => simp [Except.map]
      | ok later => simp [Except.map, eq_comm]

theorem exists_search_iff :
    (∃ met, (search tree extensions arguments).result = .ok met) ↔
      ∀ argument ∈ arguments, ∃ files, filesOf tree extensions argument = .ok files := by
  induction arguments with
  | nil => simp [search]
  | cons argument arguments ih =>
      rw [List.forall_mem_cons, ← ih]
      constructor
      · rintro ⟨met, h⟩
        obtain ⟨files, later, hfiles, hlater, -⟩ := search_cons_eq_ok_iff.1 h
        exact ⟨⟨files, hfiles⟩, later, hlater⟩
      · rintro ⟨⟨files, hfiles⟩, later, hlater⟩
        exact ⟨_, search_cons_eq_ok_iff.2 ⟨files, later, hfiles, hlater, rfl⟩⟩

theorem mem_of_search {met : List String} (h : (search tree extensions arguments).result = .ok met) :
    path ∈ met ↔ ∃ argument ∈ arguments, StandsFor tree extensions argument path := by
  induction arguments generalizing met with
  | nil =>
      rw [search] at h
      injection h with h
      simp [← h]
  | cons argument arguments ih =>
      obtain ⟨files, later, hfiles, hlater, rfl⟩ := search_cons_eq_ok_iff.1 h
      rw [List.mem_append, mem_of_filesOf hfiles, ih hlater, List.exists_mem_cons_iff]

/-! ### The result -/

variable {found : List String}

theorem findSources_eq_ok_iff :
    (findSources tree extensions arguments).result = .ok found ↔
      ∃ met, (search tree extensions arguments).result = .ok met ∧ found = Path.sortDistinct met := by
  rw [findSources]
  cases (search tree extensions arguments).result with
  | error bad => simp [Except.map]
  | ok met => simp [Except.map, eq_comm]

/-- There is a result exactly when every argument that names neither a file nor a directory can be
read as a pattern. -/
theorem exists_findSources_iff :
    (∃ found, (findSources tree extensions arguments).result = .ok found) ↔
      ∀ argument ∈ arguments, tree.isFile argument = false → tree.isDirectory argument = false →
        ∃ glob : Glob, glob.IsReadFrom argument := by
  simp only [findSources_eq_ok_iff, ← exists_filesOf_iff extensions,
    ← exists_search_iff]
  constructor
  · rintro ⟨_, met, hmet, -⟩
    exact ⟨met, hmet⟩
  · rintro ⟨met, hmet⟩
    exact ⟨_, met, hmet, rfl⟩

theorem increasing_findSources (h : (findSources tree extensions arguments).result = .ok found) :
    found.Pairwise fun a b => Path.compare a b = .lt := by
  obtain ⟨met, -, rfl⟩ := findSources_eq_ok_iff.1 h
  exact Path.pairwise_sortDistinct met

theorem standsFor_of_mem_findSources
    (h : (findSources tree extensions arguments).result = .ok found) (hpath : path ∈ found) :
    ∃ argument ∈ arguments, StandsFor tree extensions argument path := by
  obtain ⟨met, hmet, rfl⟩ := findSources_eq_ok_iff.1 h
  exact (mem_of_search hmet).1 (Path.mem_of_mem_sortDistinct hpath)

/-- The result has every file that an argument stands for, and no other, up to the spelling. -/
theorem mem_findSources_iff (h : (findSources tree extensions arguments).result = .ok found)
    (places : List Path.Component) :
    (∃ member ∈ found, Path.components member = places) ↔ ∃ argument ∈ arguments,
      ∃ file, StandsFor tree extensions argument file ∧ Path.components file = places := by
  obtain ⟨met, hmet, rfl⟩ := findSources_eq_ok_iff.1 h
  rw [Path.exists_mem_sortDistinct_iff]
  simp only [mem_of_search hmet]
  constructor
  · rintro ⟨file, ⟨argument, hargument, hstands⟩, hplaces⟩
    exact ⟨argument, hargument, file, hstands, hplaces⟩
  · rintro ⟨argument, hargument, file, hstands, hplaces⟩
    exact ⟨file, ⟨argument, hargument, hstands⟩, hplaces⟩

/-- In a proper tree every result is a file. -/
theorem isFile_of_mem_findSources (hproper : tree.root.isProper = true)
    (h : (findSources tree extensions arguments).result = .ok found) (hpath : path ∈ found) :
    tree.isFile path = true := by
  obtain ⟨argument, -, hstands⟩ := standsFor_of_mem_findSources h hpath
  cases hstands with
  | file h => exact h
  | below hdirectory hbelow =>
      exact FileTree.isFile_iff.2 ⟨_, FileTree.node?_foldl_join hproper hbelow hdirectory⟩
  | matching _ _ _ _ h => exact h

end Discovery
end ExportIndex
