import ExportIndex.Proofs.FileTree.Below
import ExportIndex.Proofs.Glob.Matching
import ExportIndex.Glob.Search

/-!
# What a pattern finds

* `Leg.LeadsTo` says where one leg of a search leads to from a path, and `Reaches` where several do, one
  after the other; neither says in which order the paths are met.
* `Finds` says which paths a pattern finds in a tree: those that its legs reach from its start, and only
  directories if it asks for them.
* `mem_find_iff` — the search finds exactly these.
-/

namespace ExportIndex
namespace Glob

/-- The names that a component stands for. -/
def Component.StandsFor (component : Component) (name : String) : Prop :=
  Covers component.tokens name.toList

/-- The path that names spell from a path. -/
def spellAll (path : String) : List String → String
  | [] => path
  | name :: names => names.foldl Path.join (spell path name)

/-- Where a leg leads to from a path. -/
inductive Leg.LeadsTo (tree : FileTree) (path : String) : Leg → String → Prop
  | dots {text : String} (htext : text = "." ∨ text = "..") (h : tree.isDirectory path = true) :
      LeadsTo tree path (.name text) (spell path text)
  | name {text : String} (htext : ¬(text = "." ∨ text = ".."))
      (h : tree.contains (spell path text) = true) : LeadsTo tree path (.name text) (spell path text)
  | entry {component : Component} {entries : List (String × Node)} {name : String} {node : Node}
      (hdirectory : tree.node? path = some (.directory entries)) (hentry : (name, node) ∈ entries)
      (hname : component.StandsFor name) : LeadsTo tree path (.entries component) (spell path name)
  | dotEntry {component : Component} {name : String} (hdots : name = ".." ∨ name = ".")
      (hdirectory : tree.isDirectory path = true)
      (hfirst : component.tokens.head? = some (.literal '.')) (hname : component.StandsFor name) :
      LeadsTo tree path (.entries component) (Path.join path name)
  | depth {component : Component} {entries : List (String × Node)} {names : List String}
      {name : String} {node : Node} (hdirectory : tree.node? path = some (.directory entries))
      (hbelow : Node.Below (.directory entries) names node) (hlast : names.getLast? = some name)
      (hname : component.StandsFor name) : LeadsTo tree path (.depths component) (spellAll path names)
  | directory {entries inner : List (String × Node)} {names : List String}
      (hdirectory : tree.node? path = some (.directory entries))
      (hbelow : Node.Below (.directory entries) names (.directory inner)) :
      LeadsTo tree path .directories (spellAll path names)

/-- Where legs lead to from a path, one after the other. -/
inductive Reaches (tree : FileTree) : String → List Leg → String → Prop
  | here (path : String) : Reaches tree path [] path
  | leg {path next found : String} {leg : Leg} {legs : List Leg} (h : leg.LeadsTo tree path next)
      (later : Reaches tree next legs found) : Reaches tree path (leg :: legs) found

/-- The paths that a pattern finds. -/
structure Finds (glob : Glob) (tree : FileTree) (path : String) : Prop where
  reaches : Reaches tree glob.start glob.legs path
  directory : glob.directoriesOnly = true → tree.isDirectory path = true

variable {tree : FileTree} {path next : String}

/-! ### One leg -/

theorem Component.accepts_iff {component : Component} {name : String} :
    component.accepts name = true ↔ component.StandsFor name :=
  matchesName_iff

theorem mem_entriesAt_iff {entry : String × Node} :
    entry ∈ entriesAt tree path ↔
      ∃ entries, tree.node? path = some (.directory entries) ∧ entry ∈ entries := by
  rw [entriesAt]
  cases tree.node? path with
  | none => simp
  | some node => cases node <;> simp [Node.entries]

/-- What lies below a path is what names lead to from its directory. -/
theorem mem_belowAt_iff {found : Found} :
    found ∈ belowAt tree path ↔ ∃ entries names, tree.node? path = some (.directory entries) ∧
      Node.Below (.directory entries) names found.node ∧ names.getLast? = some found.name ∧
        found.path = spellAll path names := by
  rw [belowAt, Node.mem_descendantsOf_iff]
  simp only [mem_entriesAt_iff]
  constructor
  · rintro ⟨name, node, ⟨entries, hnode, hentry⟩, rfl | hfound⟩
    · exact ⟨entries, [name], hnode, .entry hentry, rfl, rfl⟩
    · obtain ⟨names, hbelow, hlast, hpath⟩ := Node.mem_descendants_iff.1 hfound
      refine ⟨entries, name :: names, hnode, .deeper hentry hbelow, ?_, hpath⟩
      rw [List.getLast?_cons, hlast]
      rfl
  · rintro ⟨entries, names, hnode, hbelow, hlast, hpath⟩
    obtain ⟨_, name, node⟩ := found
    subst hpath
    cases hbelow with
    | @entry _ first _ hentry =>
        obtain rfl : first = name := Option.some.inj hlast
        exact ⟨first, node, ⟨entries, hnode, hentry⟩, .inl rfl⟩
    | @deeper _ first inner _ names hentry hbelow =>
        refine ⟨first, inner, ⟨entries, hnode, hentry⟩, .inr (Node.mem_descendants_iff.2 ?_)⟩
        refine ⟨names, hbelow, ?_, rfl⟩
        cases hbelow <;> simpa using hlast

theorem mem_dotEntries_iff {component : Component} :
    next ∈ dotEntries tree path component ↔ ∃ name, (name = ".." ∨ name = ".") ∧
      tree.isDirectory path = true ∧ component.tokens.head? = some (.literal '.') ∧
        component.StandsFor name ∧ next = Path.join path name := by
  rw [dotEntries]
  split
  · rename_i hdots
    rw [Bool.and_eq_true, Component.startsWithDot, beq_iff_eq] at hdots
    simp only [List.mem_map, List.mem_filter, List.mem_cons, List.not_mem_nil, or_false,
      Component.accepts_iff, hdots, true_and]
    constructor
    · rintro ⟨name, ⟨hname, haccepts⟩, rfl⟩
      exact ⟨name, hname, haccepts, rfl⟩
    · rintro ⟨name, hname, haccepts, rfl⟩
      exact ⟨name, ⟨hname, haccepts⟩, rfl⟩
  · rename_i hdots
    rw [Bool.and_eq_true, Component.startsWithDot, beq_iff_eq] at hdots
    constructor
    · exact nofun
    · rintro ⟨_, _, hdirectory, hfirst, -⟩
      exact absurd ⟨hdirectory, hfirst⟩ hdots

/-- A leg leads where it is said to lead. -/
theorem mem_pathsFrom_iff {leg : Leg} : next ∈ leg.pathsFrom tree path ↔ leg.LeadsTo tree path next := by
  cases leg with
  | name text =>
      have hmem : next ∈ (Leg.name text).pathsFrom tree path ↔
          canFollow tree path text = true ∧ next = spell path text := by
        rw [Leg.pathsFrom]
        split <;> simp_all
      rw [hmem, canFollow]
      constructor
      · rintro ⟨hfollow, rfl⟩
        split at hfollow
        · exact .dots ‹_› hfollow
        · exact .name ‹_› hfollow
      · intro hleads
        cases hleads with
        | dots htext h => exact ⟨by rwa [if_pos htext], rfl⟩
        | name htext h => exact ⟨by rwa [if_neg htext], rfl⟩
  | entries component =>
      simp only [Leg.pathsFrom, Node.foundEntries, List.mem_append, mem_dotEntries_iff, List.mem_map,
        List.mem_filter, Component.accepts_iff, mem_entriesAt_iff]
      constructor
      · rintro (⟨name, hdots, hdirectory, hfirst, hname, rfl⟩ |
          ⟨_, ⟨⟨entry, ⟨entries, hnode, hentry⟩, rfl⟩, hname⟩, rfl⟩)
        · exact .dotEntry hdots hdirectory hfirst hname
        · exact .entry hnode hentry hname
      · intro hleads
        cases hleads with
        | dotEntry hdots hdirectory hfirst hname =>
            exact .inl ⟨_, hdots, hdirectory, hfirst, hname, rfl⟩
        | entry hnode hentry hname => exact .inr ⟨_, ⟨⟨_, ⟨_, hnode, hentry⟩, rfl⟩, hname⟩, rfl⟩
  | depths component =>
      simp only [Leg.pathsFrom, List.mem_map, List.mem_filter, Component.accepts_iff, mem_belowAt_iff]
      constructor
      · rintro ⟨found, ⟨⟨entries, names, hnode, hbelow, hlast, hpath⟩, hname⟩, rfl⟩
        rw [hpath]
        exact .depth hnode hbelow hlast hname
      · intro hleads
        cases hleads with
        | depth hnode hbelow hlast hname =>
            exact ⟨⟨_, _, _⟩, ⟨⟨_, _, hnode, hbelow, hlast, rfl⟩, hname⟩, rfl⟩
  | directories =>
      simp only [Leg.pathsFrom, List.mem_map, List.mem_filter, mem_belowAt_iff]
      constructor
      · rintro ⟨⟨_, name, node⟩, ⟨⟨entries, names, hnode, hbelow, hlast, rfl⟩, hdirectory⟩, rfl⟩
        cases node with
        | file content => contradiction
        | directory inner => exact .directory hnode hbelow
      · intro hleads
        cases hleads with
        | @directory entries inner names hnode hbelow =>
            have hne : names ≠ [] := by
              rintro rfl
              contradiction
            exact ⟨⟨_, names.getLast hne, _⟩,
              ⟨⟨_, names, hnode, hbelow, List.getLast?_eq_some_getLast hne, rfl⟩, rfl⟩, rfl⟩

/-! ### All legs -/

theorem mem_pathsAlong_iff {legs : List Leg} {paths : List String} {found : String} :
    found ∈ pathsAlong tree paths legs ↔ ∃ path ∈ paths, Reaches tree path legs found := by
  induction legs generalizing paths with
  | nil =>
      constructor
      · exact fun h => ⟨found, h, .here found⟩
      · rintro ⟨path, hpath, ⟨⟩⟩
        exact hpath
  | cons leg legs ih =>
      rw [pathsAlong, List.foldl_cons]
      refine ih.trans ?_
      simp only [List.mem_flatMap, mem_pathsFrom_iff]
      constructor
      · rintro ⟨next, ⟨path, hpath, hleads⟩, hlater⟩
        exact ⟨path, hpath, .leg hleads hlater⟩
      · rintro ⟨path, hpath, hreaches⟩
        cases hreaches with
        | leg hleads hlater => exact ⟨_, ⟨path, hpath, hleads⟩, hlater⟩

/-- A search finds what its pattern finds. -/
theorem mem_find_iff {glob : Glob} : path ∈ glob.find tree ↔ glob.Finds tree path := by
  rw [find, List.mem_filter, mem_pathsAlong_iff]
  constructor
  · rintro ⟨⟨_, hstart, hreaches⟩, hdirectory⟩
    refine ⟨List.mem_singleton.1 hstart ▸ hreaches, fun honly => ?_⟩
    simpa [honly] using hdirectory
  · rintro ⟨hreaches, hdirectory⟩
    refine ⟨⟨_, List.mem_singleton_self _, hreaches⟩, ?_⟩
    cases honly : glob.directoriesOnly with
    | false => rfl
    | true => exact hdirectory honly

end Glob
end ExportIndex
