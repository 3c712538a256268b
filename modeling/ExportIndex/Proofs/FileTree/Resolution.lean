import Mathlib.Data.List.Nodup
import ExportIndex.Proofs.FileTree.Below
import ExportIndex.Proofs.Path.Order

/-!
# Where paths lead

* `Node.isProper` says that every directory lists each name once, and only names that can stand between
  two slashes.
* `node?_foldl_join` — in a proper tree the path that names spell from a directory leads where the
  names lead.
* `read_eq_of_components` — spellings of one path that lead to files lead to the same file.
-/

namespace ExportIndex

/-- Whether a text can be the name of an entry. -/
def Path.isName (text : String) : Bool :=
  text != "" && text != "." && text != ".." && !text.toList.contains '/'

namespace Node

mutual

/-- Whether every directory of a tree lists each name once, and only texts that can be names. -/
def isProper : Node → Bool
  | .file _ => true
  | .directory entries => decide (entries.map Prod.fst).Nodup && areProper entries

/-- Whether the entries of a directory have names and lead to proper nodes. -/
def areProper : List (String × Node) → Bool
  | [] => true
  | (name, node) :: rest => Path.isName name && node.isProper && areProper rest

end

section Proper

variable {entries : List (String × Node)} {name : String} {node inner : Node}

theorem areProper_iff :
    areProper entries = true ↔ ∀ entry ∈ entries, Path.isName entry.1 = true ∧
      entry.2.isProper = true := by
  induction entries with
  | nil => simp [areProper]
  | cons first rest ih =>
      obtain ⟨name, node⟩ := first
      simp [areProper, ih]

theorem isProper_directory_iff :
    (directory entries).isProper = true ↔ (entries.map Prod.fst).Nodup ∧
      ∀ entry ∈ entries, Path.isName entry.1 = true ∧ entry.2.isProper = true := by
  rw [isProper, Bool.and_eq_true, decide_eq_true_eq, areProper_iff]

/-- In a proper directory an entry is found under its name. -/
theorem child?_of_mem (h : (directory entries).isProper = true) (hentry : (name, node) ∈ entries) :
    child? name entries = some node := by
  obtain ⟨hnodup, -⟩ := isProper_directory_iff.1 h
  rw [child?]
  cases hfind : entries.find? (·.1 == name) with
  | none =>
      have := List.find?_eq_none.1 hfind _ hentry
      simp at this
  | some found =>
      have hname : found.1 = name := by simpa using List.find?_some hfind
      rw [List.inj_on_of_nodup_map hnodup (List.mem_of_find?_eq_some hfind) hentry hname]
      rfl

theorem isProper_of_get? {names : List String} (h : node.isProper = true)
    (hget : node.get? names = some inner) : inner.isProper = true := by
  induction names generalizing node with
  | nil =>
      rw [get?] at hget
      exact Option.some.inj hget ▸ h
  | cons name names ih =>
      rw [get?, Option.bind_eq_some_iff] at hget
      obtain ⟨child, hchild, hget⟩ := hget
      refine ih ?_ hget
      obtain ⟨entry, hentry, rfl⟩ := Option.map_eq_some_iff.1 hchild
      have hmem := List.mem_of_find?_eq_some hentry
      cases node with
      | file content => contradiction
      | directory entries => exact ((isProper_directory_iff.1 h).2 entry hmem).2

theorem get?_append (node : Node) (names later : List String) :
    node.get? (names ++ later) = (node.get? names).bind (·.get? later) := by
  induction names generalizing node with
  | nil => rfl
  | cons name names ih =>
      rw [List.cons_append, get?, get?, Option.bind_assoc]
      congr 1
      funext child
      exact ih child

end Proper
end Node

/-! ### Pieces -/

namespace Path

theorem pieces_append_slash (path later : String) :
    pieces (path ++ "/" ++ later) = pieces path ++ pieces later := by
  have htext : (path ++ "/" ++ later).toList = path.toList ++ '/' :: later.toList := by
    simp [String.toList_append]
  rw [pieces, htext, List.splitOn_append_cons_self, List.map_append]
  rfl

theorem pieces_of_isName {name : String} (h : isName name = true) : pieces name = [name] := by
  have hslash : '/' ∉ name.toList := by
    rw [isName, Bool.and_eq_true] at h
    simpa using h.2
  rw [pieces, List.splitOn_eq_singleton hslash, List.map_singleton, String.ofList_toList]

/-- A path that ends in a slash has an empty piece at its end. -/
theorem exists_of_getLast?_slash {path : String} (h : path.toList.getLast? = some '/') :
    ∃ front : String, path = front ++ "/" := by
  refine ⟨String.ofList path.toList.dropLast, ?_⟩
  rw [← String.toList_inj, String.toList_append, String.toList_ofList]
  exact (List.dropLast_append_getLast? '/' h).symm

theorem isAbsolute_append {path : String} (h : path ≠ "") (later : String) :
    isAbsolute (path ++ later) = isAbsolute path := by
  have hne : path.toList ≠ [] := fun hnil => h (String.toList_eq_nil_iff.1 hnil)
  rw [isAbsolute, isAbsolute, String.toList_append, List.head?_append_of_ne_nil _ hne]

end Path

/-! ### Following paths -/

namespace FileTree

open Node (Below child? get?_append isProper_of_get? isProper_directory_iff child?_of_mem)

theorem follow_append (root : Node) (trail pieces later : List String) :
    follow root trail (pieces ++ later) =
      (follow root trail pieces).bind fun trail => follow root trail later := by
  induction pieces generalizing trail with
  | nil => rfl
  | cons piece pieces ih =>
      rw [List.cons_append, follow, follow]
      split
      · rfl
      · rfl
      · split
        · exact ih trail
        · split
          · exact ih trail.tail
          · split
            · exact ih (piece :: trail)
            · rfl

theorem node?_eq_some_iff {tree : FileTree} {path : String} {node : Node} :
    tree.node? path = some node ↔
      ∃ trail, tree.resolve path = .ok trail ∧ tree.root.get? trail.reverse = some node := by
  rw [node?]
  cases tree.resolve path <;> simp

/-- A directory may be named with or without a slash behind it before one of its names follows. -/
theorem exists_pieces_join {tree : FileTree} {path name : String} {trail : List String}
    (hname : Path.isName name = true) (h : tree.resolve path = .ok trail) :
    ∃ pieces, follow tree.root (tree.startTrail path) pieces = .ok trail ∧
      Path.pieces (Path.join path name) = pieces ++ [name] := by
  rw [resolve] at h
  split at h
  · contradiction
  · rename_i hne
    rw [Path.join]
    split
    · rename_i hslash
      obtain ⟨front, rfl⟩ := Path.exists_of_getLast?_slash (hslash.resolve_left hne)
      have hpieces := Path.pieces_append_slash front name
      refine ⟨Path.pieces front, ?_, by rw [hpieces, Path.pieces_of_isName hname]⟩
      have hend := Path.pieces_append_slash front ""
      rw [String.append_empty] at hend
      rw [hend, follow_append] at h
      cases hfront : follow tree.root (tree.startTrail (front ++ "/")) (Path.pieces front) with
      | error fault =>
          rw [hfront] at h
          contradiction
      | ok before =>
          -- The empty piece behind the slash leads nowhere else.
          rw [hfront] at h
          change follow tree.root before [""] = .ok trail at h
          rw [follow] at h
          split at h
          · contradiction
          · contradiction
          · rw [if_pos (.inl rfl), follow] at h
            exact h
    · exact ⟨Path.pieces path, h, by rw [Path.pieces_append_slash, Path.pieces_of_isName hname]⟩

theorem isAbsolute_join {path : String} (h : path ≠ "") (name : String) :
    Path.isAbsolute (Path.join path name) = Path.isAbsolute path := by
  rw [Path.join]
  split
  · exact Path.isAbsolute_append h name
  · rw [String.append_assoc]
    exact Path.isAbsolute_append h _

/-- In a proper tree the path of an entry leads to the entry. -/
theorem node?_join {tree : FileTree} (hproper : tree.root.isProper = true) {path name : String}
    {entries : List (String × Node)} {child : Node}
    (hpath : tree.node? path = some (.directory entries)) (hentry : (name, child) ∈ entries) :
    tree.node? (Path.join path name) = some child := by
  obtain ⟨trail, htrail, hget⟩ := node?_eq_some_iff.1 hpath
  have hdirectory := isProper_of_get? hproper hget
  have hchild := child?_of_mem hdirectory hentry
  have hname := ((isProper_directory_iff.1 hdirectory).2 _ hentry).1
  have hne : path ≠ "" := by
    rintro rfl
    contradiction
  obtain ⟨pieces, hfollow, hpieces⟩ := exists_pieces_join hname htrail
  have hstep : follow tree.root trail [name] = .ok (name :: trail) := by
    simp only [Path.isName, Bool.and_eq_true, bne_iff_ne] at hname
    obtain ⟨⟨⟨hempty, hdot⟩, hdots⟩, -⟩ := hname
    simp [follow, hget, hempty, hdot, hdots, hchild]
  have hjoin : Path.join path name ≠ "" := by
    intro heq
    rw [heq] at hpieces
    have hlast : [""].getLast? = (pieces ++ [name]).getLast? := congrArg List.getLast? hpieces
    rw [List.getLast?_concat] at hlast
    rw [← Option.some.inj hlast] at hname
    contradiction
  refine node?_eq_some_iff.2 ⟨name :: trail, ?_, ?_⟩
  · rw [resolve, if_neg hjoin, startTrail, isAbsolute_join hne, hpieces, follow_append]
    rw [startTrail] at hfollow
    rw [hfollow]
    exact hstep
  · rw [List.reverse_cons, get?_append, hget, Option.bind_some, Node.get?, Node.entries, hchild]
    rfl

/-- In a proper tree the path that names spell leads where the names lead. -/
theorem node?_foldl_join {tree : FileTree} (hproper : tree.root.isProper = true) {path : String}
    {directory leaf : Node} {names : List String} (hbelow : Below directory names leaf)
    (hpath : tree.node? path = some directory) :
    tree.node? (names.foldl Path.join path) = some leaf := by
  induction hbelow generalizing path with
  | entry hentry => exact node?_join hproper hpath hentry
  | deeper hentry _ ih => exact ih (node?_join hproper hpath hentry)

/-! ### Spellings of one path -/

/-- Where a component leads from a trail, whose last name comes first. -/
def advance (trail : List String) : Path.Component → List String
  | .root => []
  | .current => trail
  | .parent => trail.tail
  | .name text => text :: trail

theorem trail_of_follow {root : Node} {trail trail' pieces : List String}
    (h : follow root trail pieces = .ok trail') :
    trail' = (pieces.filterMap Path.componentOf).foldl advance trail := by
  induction pieces generalizing trail with
  | nil =>
      rw [follow] at h
      injection h with h
      exact h.symm
  | cons piece pieces ih =>
      rw [follow] at h
      split at h
      · contradiction
      · contradiction
      · rw [List.filterMap_cons, Path.componentOf]
        split at h
        · rename_i hblank
          rw [if_pos hblank]
          exact ih h
        · rename_i hblank
          rw [if_neg hblank]
          split at h
          · rename_i hparent
            rw [if_pos hparent]
            exact ih h
          · rename_i hparent
            rw [if_neg hparent]
            split at h
            · exact ih h
            · contradiction

/-- The components of a path decide where it leads, if it leads anywhere. -/
theorem trail_of_resolve {tree : FileTree} {path : String} {trail : List String}
    (h : tree.resolve path = .ok trail) :
    trail = (Path.components path).foldl advance tree.here.reverse := by
  rw [resolve] at h
  split at h
  · contradiction
  · rw [trail_of_follow h, startTrail, Path.components]
    split
    · rfl
    · split <;> rfl

theorem isFile_iff {tree : FileTree} {path : String} :
    tree.isFile path = true ↔ ∃ content, tree.node? path = some (.file content) := by
  rw [isFile]
  cases tree.node? path with
  | none => simp
  | some node => cases node <;> simp [Node.isDirectory]

theorem isDirectory_iff {tree : FileTree} {path : String} :
    tree.isDirectory path = true ↔ ∃ entries, tree.node? path = some (.directory entries) := by
  rw [isDirectory]
  cases tree.node? path with
  | none => simp
  | some node => cases node <;> simp [Node.isDirectory]

/-- No path leads to a file and to a directory. -/
theorem isFile_eq_false_of_isDirectory {tree : FileTree} {path : String}
    (h : tree.isDirectory path = true) : tree.isFile path = false := by
  obtain ⟨entries, hentries⟩ := isDirectory_iff.1 h
  rw [isFile, hentries]
  rfl

/-- Spellings of one path that lead to files lead to the same text. -/
theorem read_eq_of_components {tree : FileTree} {a b : String}
    (h : Path.components a = Path.components b) (ha : tree.isFile a = true)
    (hb : tree.isFile b = true) : tree.read a = tree.read b := by
  obtain ⟨_, hnode⟩ := isFile_iff.1 ha
  obtain ⟨_, hnode'⟩ := isFile_iff.1 hb
  obtain ⟨trail, htrail, -⟩ := node?_eq_some_iff.1 hnode
  obtain ⟨trail', htrail', -⟩ := node?_eq_some_iff.1 hnode'
  have htrails : trail = trail' := by
    rw [trail_of_resolve htrail, h, ← trail_of_resolve htrail']
  rw [read, read, htrail, htrail', htrails]

end FileTree
end ExportIndex
