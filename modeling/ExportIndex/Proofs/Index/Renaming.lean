import ExportIndex.Proofs.Index.Building
import ExportIndex.Proofs.Index.LastDeclaration
import ExportIndex.Proofs.Source.Markers

/-!
# What sources are called

The name of a source is carried along with what the source exports and looked at nowhere on the way.

* `labelled` views sources, exports and entries with a label in place of the name of the source; two
  names with one label are the same name as far as the view goes.
* `scan_of_text` — the declarations of a source depend on its text alone.
* `build_of_labelled` — sources that look alike have indexes that look alike, entry by entry.
-/

namespace ExportIndex

open Text (Line)

section Views

variable {α : Type} (label : String → α)

/-- A source with a label for its name. -/
def Source.labelled (source : Source) : α × String :=
  (label source.id, source.text)

/-- The exports of a source with a label for its name. -/
def SourceExports.labelled (exports : SourceExports) : α × List Declaration :=
  (label exports.source, exports.declarations)

/-- An entry with a label for the name of its source. -/
def Entry.labelled (entry : Entry) : α × Declaration :=
  (label entry.source, entry.declaration)

end Views

/-! ### One source -/

namespace Source

theorem search_renamed (id other : String) (text : List Char) (resume : Nat) (rest : List Line) :
    search other text resume rest = { search id text resume rest with source := other } := by
  induction rest generalizing resume with
  | nil => rfl
  | cons line later ih =>
      cases hpass : passes resume line with
      | true => rw [search_skip hpass, search_skip hpass, ih]
      | false =>
          cases later with
          | nil => rw [search_last hpass, search_last hpass]
          | cons first later =>
              rw [search_marker hpass, search_marker hpass]
              cases Declaration.scan text first.start first.number with
              | error error => rfl
              | ok scanned =>
                  obtain ⟨declaration, finish⟩ := scanned
                  simp only [ih, Findings.cons]

/-- Sources with one text export the same declarations. -/
theorem scan_of_text {source other : Source} {exports : SourceExports}
    (htext : source.text = other.text) (h : source.scan = .ok exports) :
    other.scan = .ok ⟨other.id, exports.declarations⟩ := by
  obtain ⟨hfailure, rfl⟩ := scan_eq_ok_iff.1 h
  have hfindings : other.findings = { source.findings with source := other.id } := by
    rw [findings, findings, htext]
    exact search_renamed source.id other.id _ _ _
  refine scan_eq_ok_iff.2 ⟨?_, ?_⟩
  · rw [hfindings, hfailure]
  · rw [hfindings]

end Source

/-! ### Lists of sources -/

variable {α : Type} {label : String → α}

/-- Sources that look alike have exports that look alike. -/
theorem Source.exists_parts_of_labelled {sources others : List Source} {parts : List SourceExports}
    (h : sources.map (labelled label) = others.map (labelled label))
    (hparts : sources.map Source.scan = parts.map .ok) :
    ∃ parts' : List SourceExports, others.map Source.scan = parts'.map .ok ∧
      parts.map (SourceExports.labelled label) = parts'.map (SourceExports.labelled label) := by
  induction sources generalizing others parts with
  | nil =>
      obtain rfl := List.map_eq_nil_iff.1 h.symm
      obtain rfl := List.map_eq_nil_iff.1 hparts.symm
      exact ⟨[], rfl, rfl⟩
  | cons source sources ih =>
      obtain ⟨other, others, rfl, hfirst, hlater⟩ := List.map_eq_cons_iff.1 h.symm
      obtain ⟨exports, later, rfl, hscan, hscans⟩ := List.map_eq_cons_iff.1 hparts.symm
      obtain ⟨later', hscans', hlabels⟩ := ih hlater.symm hscans.symm
      obtain ⟨hid, htext⟩ := Prod.mk.inj hfirst
      refine ⟨⟨other.id, exports.declarations⟩ :: later', ?_, ?_⟩
      · rw [List.map_cons, List.map_cons, hscans', scan_of_text htext.symm hscan.symm]
      · rw [List.map_cons, List.map_cons, hlabels]
        have hsource : exports.source = source.id := by
          rw [(scan_eq_ok_iff.1 hscan.symm).2]
        simp only [SourceExports.labelled, hsource, hid]

namespace Index

open SourceExports (allEntries)

/-! ### Insertions -/

theorem map_labelled_insertEntry {entry other : Entry} {entries others : List Entry}
    (hentry : entry.labelled label = other.labelled label)
    (hentries : entries.map (Entry.labelled label) = others.map (Entry.labelled label)) :
    (insertEntry entry entries).1.map (Entry.labelled label) =
      (insertEntry other others).1.map (Entry.labelled label) := by
  have hname {a b : Entry} (h : a.labelled label = b.labelled label) : a.name = b.name :=
    congrArg (·.2.name) h
  induction entries generalizing others with
  | nil =>
      obtain rfl := List.map_eq_nil_iff.1 hentries.symm
      simp [insertEntry, hentry]
  | cons first rest ih =>
      obtain ⟨first', rest', rfl, hfirst, hrest⟩ := List.map_eq_cons_iff.1 hentries.symm
      rw [insertEntry, insertEntry, hname hentry, ← hname hfirst]
      split
      · simp [hentry, hfirst, hrest]
      · split
        · simp [hentry, hrest]
        · rw [List.map_cons, List.map_cons, hfirst, ih hrest.symm]

theorem map_labelled_foldl_insert (growth other : Growth) {entries others : List Entry}
    (hindex : growth.index.entries.map (Entry.labelled label) =
      other.index.entries.map (Entry.labelled label))
    (hentries : entries.map (Entry.labelled label) = others.map (Entry.labelled label)) :
    (entries.foldl Growth.insert growth).index.entries.map (Entry.labelled label) =
      (others.foldl Growth.insert other).index.entries.map (Entry.labelled label) := by
  induction entries generalizing growth other others with
  | nil =>
      obtain rfl := List.map_eq_nil_iff.1 hentries.symm
      exact hindex
  | cons entry entries ih =>
      obtain ⟨entry', entries', rfl, hfirst, hrest⟩ := List.map_eq_cons_iff.1 hentries.symm
      exact ih (growth.insert entry) (other.insert entry')
        (map_labelled_insertEntry hfirst.symm hindex) hrest.symm

theorem map_labelled_allEntries (parts : List SourceExports) :
    (allEntries parts).map (Entry.labelled label) =
      (parts.map (SourceExports.labelled label)).flatMap fun (source, declarations) =>
        declarations.map (source, ·) := by
  rw [allEntries, List.map_flatMap, List.flatMap_map]
  congr 1
  funext exports
  exact List.map_map

/-- Sources that look alike have indexes that look alike. -/
theorem build_of_labelled {jobs : Nat} {sources others : List Source} {index : Index}
    (h : sources.map (Source.labelled label) = others.map (Source.labelled label))
    (hbuild : build jobs sources = .ok index) :
    ∃ other, build jobs others = .ok other ∧
      index.entries.map (Entry.labelled label) = other.entries.map (Entry.labelled label) := by
  obtain ⟨parts, hparts, rfl⟩ := build_eq_ok_iff.1 hbuild
  obtain ⟨parts', hparts', hlabels⟩ := Source.exists_parts_of_labelled h hparts
  refine ⟨merge parts', build_eq_ok_iff.2 ⟨parts', hparts', rfl⟩, ?_⟩
  rw [merge, merge, growth_eq_foldl, growth_eq_foldl]
  refine map_labelled_foldl_insert (.start empty) (.start empty) rfl ?_
  rw [map_labelled_allEntries, map_labelled_allEntries, hlabels]

theorem declarations_of_labelled {index other : Index}
    (h : index.entries.map (Entry.labelled label) = other.entries.map (Entry.labelled label)) :
    index.declarations = other.declarations := by
  have hdeclarations := congrArg (List.map Prod.snd) h
  rw [List.map_map, List.map_map] at hdeclarations
  exact hdeclarations

/-- What an index answers for a name is seen in the view of its entries. -/
theorem map_labelled_find? {index : Index} (name : String) :
    (index.find? name).map (Entry.labelled label) =
      (index.entries.map (Entry.labelled label)).find? (·.2.name == name) := by
  rw [List.find?_map]
  rfl

/-- Indexes that look alike answer alike: the same declaration, from a source with the same label. -/
theorem answers_of_labelled {index other : Index}
    (h : index.entries.map (Entry.labelled label) = other.entries.map (Entry.labelled label))
    (name : String) :
    index.get? name = other.get? name ∧
      (index.origin? name).map label = (other.origin? name).map label := by
  have hfind : (index.find? name).map (Entry.labelled label) =
      (other.find? name).map (Entry.labelled label) := by
    rw [map_labelled_find?, map_labelled_find?, h]
  have hget := congrArg (Option.map Prod.snd) hfind
  have horigin := congrArg (Option.map Prod.fst) hfind
  rw [Option.map_map, Option.map_map] at hget horigin
  refine ⟨hget, ?_⟩
  rw [origin?, origin?, Option.map_map, Option.map_map]
  exact horigin

end Index
end ExportIndex
