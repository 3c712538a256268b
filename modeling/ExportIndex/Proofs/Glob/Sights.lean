import Mathlib.Data.List.Basic
import Mathlib.Data.List.Induction
import ExportIndex.Glob.Search

/-!
# What a search looks at

A search looks at the directories that its legs come to and at nothing else, so it can be carried out in
a tree that holds no more than these.

* `Node.outline` is what there is to see of a node down to a depth: names and kinds, but no bytes.
* `SameSight` says that two trees show the same where a leg starts, as far as the leg looks.
* `pathsFrom_eq_of_sameSight` — then the leg leads to the same paths; `find_eq_of_sameSight` — trees that
  show the same wherever the search comes by hold the same finds.
-/

namespace ExportIndex
namespace Node

mutual

/-- What there is to see of a node down to a depth, or at any depth. -/
def outline (depth : Option Nat) : Node → Node
  | .file _ => .file ByteArray.empty
  | .directory entries =>
    if depth = some 0 then emptyDirectory
    else .directory (outlineOf (depth.map (· - 1)) entries)

/-- What there is to see of entries, each down to a depth. -/
def outlineOf (depth : Option Nat) : List (String × Node) → List (String × Node)
  | [] => []
  | (name, node) :: rest => (name, node.outline depth) :: outlineOf depth rest

end

theorem isDirectory_outline (depth : Option Nat) (node : Node) :
    (node.outline depth).isDirectory = node.isDirectory := by
  cases node with
  | file content => rfl
  | directory entries =>
      rw [outline]
      split <;> rfl

theorem entries_outline {depth : Option Nat} (hdepth : depth ≠ some 0) (node : Node) :
    (node.outline depth).entries = outlineOf (depth.map (· - 1)) node.entries := by
  cases node with
  | file content => rfl
  | directory entries =>
      rw [outline, if_neg hdepth]
      rfl

theorem map_fst_outlineOf (depth : Option Nat) (entries : List (String × Node)) :
    (outlineOf depth entries).map Prod.fst = entries.map Prod.fst := by
  induction entries with
  | nil => rfl
  | cons first rest ih => rw [outlineOf, List.map_cons, List.map_cons, ih]

end Node

/-- A node that is met, as far as it is seen. -/
def Found.outline (found : Found) : Found :=
  { found with node := found.node.outline none }

namespace Node

mutual

theorem descendants_outline (path : String) (node : Node) :
    (node.outline none).descendants path = (node.descendants path).map Found.outline := by
  match node with
  | .file content => rfl
  | .directory entries =>
      rw [outline, if_neg (by exact nofun), descendants, descendants]
      exact descendantsOf_outlineOf (Path.join path) entries

theorem descendantsOf_outlineOf (spell : String → String) (entries : List (String × Node)) :
    descendantsOf spell (outlineOf none entries) = (descendantsOf spell entries).map Found.outline := by
  match entries with
  | [] => rfl
  | (name, node) :: rest =>
      rw [outlineOf, descendantsOf, descendantsOf, List.map_cons, List.map_append,
        descendants_outline (spell name) node, descendantsOf_outlineOf spell rest]
      rfl

end
end Node

namespace Glob

/-- How far below its start a leg looks; `none` if there is no limit. -/
def Leg.depth : Leg → Option Nat
  | .name _ => some 0
  | .entries _ => some 1
  | .depths _ | .directories => none

/-- Two trees show the same where a leg starts, as far as the leg looks. -/
structure SameSight (tree other : FileTree) (path : String) (leg : Leg) : Prop where
  place : (tree.node? path).map (Node.outline leg.depth) =
    (other.node? path).map (Node.outline leg.depth)
  /-- A leg to a name looks whether it is there. -/
  name : ∀ text, leg = .name text →
    tree.contains (spell path text) = other.contains (spell path text)

variable {tree other : FileTree} {path : String}

theorem isDirectory_eq_of_outline {depth : Option Nat}
    (h : (tree.node? path).map (Node.outline depth) = (other.node? path).map (Node.outline depth)) :
    tree.isDirectory path = other.isDirectory path := by
  have hkind (tree : FileTree) : tree.isDirectory path =
      ((tree.node? path).map (Node.outline depth)).any Node.isDirectory := by
    rw [FileTree.isDirectory, Option.any_map]
    congr 1
    funext node
    exact (Node.isDirectory_outline depth node).symm
  rw [hkind tree, h, ← hkind other]

theorem outlineOf_entriesAt {depth : Option Nat} (hdepth : depth ≠ some 0)
    (h : (tree.node? path).map (Node.outline depth) = (other.node? path).map (Node.outline depth)) :
    Node.outlineOf (depth.map (· - 1)) (entriesAt tree path) =
      Node.outlineOf (depth.map (· - 1)) (entriesAt other path) := by
  have hentries (tree : FileTree) : Node.outlineOf (depth.map (· - 1)) (entriesAt tree path) =
      (((tree.node? path).map (Node.outline depth)).map Node.entries).getD [] := by
    rw [entriesAt]
    cases tree.node? path with
    | none => rfl
    | some node => exact (Node.entries_outline hdepth node).symm
  rw [hentries tree, h, ← hentries other]

/-- What is seen below a directory decides which of it is chosen by name and kind. -/
theorem map_path_filter_belowAt {p : Found → Bool} (hp : ∀ found, p found.outline = p found)
    (h : (tree.node? path).map (Node.outline none) = (other.node? path).map (Node.outline none)) :
    ((belowAt tree path).filter p).map Found.path = ((belowAt other path).filter p).map Found.path := by
  have hbelow : (belowAt tree path).map Found.outline = (belowAt other path).map Found.outline := by
    rw [belowAt, belowAt, ← Node.descendantsOf_outlineOf, ← Node.descendantsOf_outlineOf]
    exact congrArg _ (@outlineOf_entriesAt tree other path none nofun h)
  have hchosen (found : List Found) :
      (found.filter p).map Found.path = ((found.map Found.outline).filter p).map Found.path := by
    rw [List.filter_map, List.map_map]
    congr 1
    exact List.filter_congr fun found _ => (hp found).symm
  rw [hchosen, hbelow, ← hchosen]

/-- A leg leads to the same paths in trees that show the same. -/
theorem pathsFrom_eq_of_sameSight {leg : Leg} (h : SameSight tree other path leg) :
    leg.pathsFrom tree path = leg.pathsFrom other path := by
  obtain ⟨hplace, hname⟩ := h
  have hdirectory := isDirectory_eq_of_outline hplace
  cases leg with
  | name text => rw [Leg.pathsFrom, Leg.pathsFrom, canFollow, canFollow, hdirectory, hname text rfl]
  | entries component =>
      have hnames : (entriesAt tree path).map Prod.fst = (entriesAt other path).map Prod.fst := by
        rw [← Node.map_fst_outlineOf, outlineOf_entriesAt (by exact nofun) hplace,
          Node.map_fst_outlineOf]
      have hentries (tree : FileTree) :
          ((Node.foundEntries (spell path) (entriesAt tree path)).filter
            (component.accepts ·.name)).map Found.path =
          (((entriesAt tree path).map Prod.fst).filter component.accepts).map (spell path) := by
        rw [Node.foundEntries, List.filter_map, List.map_map, List.filter_map, List.map_map]
        rfl
      rw [Leg.pathsFrom, Leg.pathsFrom, dotEntries, dotEntries, hdirectory, hentries, hnames, ← hentries]
  | depths component => exact map_path_filter_belowAt (fun _ => rfl) hplace
  | directories => exact map_path_filter_belowAt (fun found => Node.isDirectory_outline none found.node) hplace

/-- Trees that show the same wherever a search comes by hold the same finds. -/
theorem find_eq_of_sameSight {glob : Glob}
    (hlegs : ∀ earlier leg later, glob.legs = earlier ++ leg :: later →
      ∀ path ∈ pathsAlong tree [glob.start] earlier, SameSight tree other path leg)
    (hlast : ∀ path ∈ pathsAlong tree [glob.start] glob.legs,
      tree.isDirectory path = other.isDirectory path) :
    glob.find tree = glob.find other := by
  -- The induction adds one leg at the end of those that lead to the same paths.
  have hpaths (passed : List Leg) (hpassed : passed <+: glob.legs) :
      pathsAlong tree [glob.start] passed = pathsAlong other [glob.start] passed := by
    induction passed using List.reverseRecOn with
    | nil => rfl
    | append_singleton earlier leg ih =>
        obtain ⟨later, hlater⟩ := hpassed
        rw [List.append_assoc, List.singleton_append] at hlater
        have hearlier := ih ⟨leg :: later, hlater⟩
        have happend (tree : FileTree) : pathsAlong tree [glob.start] (earlier ++ [leg]) =
            (pathsAlong tree [glob.start] earlier).flatMap (leg.pathsFrom tree) := by
          rw [pathsAlong, List.foldl_append]
          rfl
        rw [happend, happend, ← hearlier]
        refine List.flatMap_congr fun path hpath => ?_
        exact pathsFrom_eq_of_sameSight (hlegs earlier leg later hlater.symm path hpath)
  rw [find, find, ← hpaths glob.legs (List.prefix_refl _)]
  exact List.filter_congr fun path hpath => by rw [hlast path hpath]

end Glob
end ExportIndex
