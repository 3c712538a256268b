import ExportIndex.FileTree.Descendants

/-!
# What lies below a directory, without a walk

* `Node.Below` says that a list of names leads from a directory down to a node, whatever the order in
  which the entries are listed.
* `mem_descendants_iff` — a walk meets exactly the nodes below, each under the path that its names
  spell.
-/

namespace ExportIndex
namespace Node

/-- Names lead from a directory down to a node below it. -/
inductive Below : Node → List String → Node → Prop where
  | entry {entries : List (String × Node)} {name : String} {node : Node}
      (h : (name, node) ∈ entries) : Below (.directory entries) [name] node
  | deeper {entries : List (String × Node)} {name : String} {inner node : Node}
      {names : List String} (h : (name, inner) ∈ entries) (below : Below inner names node) :
      Below (.directory entries) (name :: names) node

theorem mem_descendantsOf_iff {spell : String → String} {entries : List (String × Node)}
    {found : Found} :
    found ∈ descendantsOf spell entries ↔ ∃ name node, (name, node) ∈ entries ∧
      (found = ⟨spell name, name, node⟩ ∨ found ∈ node.descendants (spell name)) := by
  induction entries with
  | nil => simp [descendantsOf]
  | cons first later ih =>
      obtain ⟨name, node⟩ := first
      rw [descendantsOf, List.mem_cons, List.mem_append, ih, ← or_assoc]
      constructor
      · rintro (h | ⟨name', node', hmem, h⟩)
        · exact ⟨name, node, List.mem_cons_self, h⟩
        · exact ⟨name', node', List.mem_cons_of_mem _ hmem, h⟩
      · rintro ⟨name', node', hmem, h⟩
        rcases List.mem_cons.1 hmem with heq | hmem
        · obtain ⟨rfl, rfl⟩ := Prod.mk.inj heq
          exact .inl h
        · exact .inr ⟨name', node', hmem, h⟩

/-- A node that names lead to is met under the path that they spell. -/
theorem mem_descendants_of_below {node leaf : Node} {names : List String} {name : String}
    (h : Below node names leaf) (hname : names.getLast? = some name) (path : String) :
    ⟨names.foldl Path.join path, name, leaf⟩ ∈ node.descendants path := by
  induction h generalizing path with
  | entry hentry =>
      rw [List.getLast?_singleton] at hname
      rw [descendants, mem_descendantsOf_iff]
      exact ⟨_, _, hentry, .inl (by rw [← Option.some.inj hname]; rfl)⟩
  | @deeper entries first inner leaf names hentry hbelow ih =>
      have hlast : names.getLast? = some name := by
        cases hbelow <;> simpa using hname
      rw [descendants, mem_descendantsOf_iff]
      exact ⟨first, inner, hentry, .inr (ih hlast (Path.join path first))⟩

/-- The names that lead to a node that is met. -/
theorem exists_below_of_mem_descendants (node : Node) {path : String} {found : Found}
    (h : found ∈ node.descendants path) :
    ∃ names, Below node names found.node ∧ names.getLast? = some found.name ∧
      found.path = names.foldl Path.join path := by
  match node with
  | .file _ =>
      rw [descendants] at h
      contradiction
  | .directory entries =>
      rw [descendants, mem_descendantsOf_iff] at h
      obtain ⟨name, inner, hentry, rfl | h⟩ := h
      · exact ⟨[name], .entry hentry, rfl, rfl⟩
      · obtain ⟨names, hbelow, hlast, hpath⟩ := exists_below_of_mem_descendants inner h
        refine ⟨name :: names, .deeper hentry hbelow, ?_, hpath⟩
        rw [List.getLast?_cons, hlast]
        rfl
termination_by sizeOf node
decreasing_by
  have := List.sizeOf_lt_of_mem hentry
  simp only [Prod.mk.sizeOf_spec, Node.directory.sizeOf_spec] at this ⊢
  omega

/-- A walk meets exactly the nodes below. -/
theorem mem_descendants_iff {node : Node} {path : String} {found : Found} :
    found ∈ node.descendants path ↔ ∃ names, Below node names found.node ∧
      names.getLast? = some found.name ∧ found.path = names.foldl Path.join path := by
  refine ⟨exists_below_of_mem_descendants node, ?_⟩
  rintro ⟨names, hbelow, hname, hpath⟩
  obtain ⟨_, _, _⟩ := found
  subst hpath
  exact mem_descendants_of_below hbelow hname path

end Node
end ExportIndex
