import Mathlib.Data.List.Dedup
import Mathlib.Data.List.Induction
import ExportIndex.Index.Basic

/-!
# The last declaration of a name stays

An index that starts empty is decided by what was inserted: of the declarations of one name the last
one stays, with the source it came from, and every name that was inserted is listed once.

* `Entry.lastNamed` is the last of some entries that has a name.
* `find?_insert` says what one insertion does to every name, and `find?_foldl_insert` what a run of
  insertions does.
* `ext_of_find?` — two indexes that answer every name alike are equal.
* `last_declaration_stays` puts this together for the exports of any sources.
-/

namespace ExportIndex

/-- The last of some entries that has the given name. -/
def Entry.lastNamed (name : String) (entries : List Entry) : Option Entry :=
  (entries.filter (·.name == name)).getLast?

/-- The entries that the exports of several sources make, in order. -/
def SourceExports.allEntries (parts : List SourceExports) : List Entry :=
  parts.flatMap SourceExports.entries

namespace Entry

theorem lastNamed_append (name : String) (earlier later : List Entry) :
    lastNamed name (earlier ++ later) = (lastNamed name later).or (lastNamed name earlier) := by
  rw [lastNamed, List.filter_append, List.getLast?_append]
  rfl

theorem lastNamed_cons (name : String) (entry : Entry) (later : List Entry) :
    lastNamed name (entry :: later) =
      (lastNamed name later).or (if entry.name = name then some entry else none) := by
  rw [← List.singleton_append, lastNamed_append]
  congr 1
  by_cases h : entry.name = name <;> simp [lastNamed, h]

theorem lastNamed_eq_none_iff {name : String} {entries : List Entry} :
    lastNamed name entries = none ↔ name ∉ entries.map Entry.name := by
  rw [lastNamed, List.getLast?_eq_none_iff, List.filter_eq_nil_iff, List.mem_map]
  simp

end Entry

namespace SourceExports

theorem allEntries_append (parts later : List SourceExports) :
    allEntries (parts ++ later) = allEntries parts ++ allEntries later :=
  List.flatMap_append

end SourceExports

namespace Index

open Entry (lastNamed lastNamed_cons lastNamed_append lastNamed_eq_none_iff)
open SourceExports (allEntries allEntries_append)

/-! ### One insertion -/

theorem findEntry_insertEntry (name : String) (entry : Entry) (entries : List Entry) :
    findEntry name (insertEntry entry entries).1 =
      if entry.name = name then some entry else findEntry name entries := by
  induction entries with
  | nil => by_cases h : entry.name = name <;> simp [findEntry, insertEntry, h]
  | cons first rest ih =>
      unfold findEntry at ih ⊢
      unfold insertEntry
      split
      · by_cases h : entry.name = name <;> simp [h]
      · split
        · -- The first entry gives way; both have the same name.
          rename_i _ heq
          by_cases h : entry.name = name
          · simp [h]
          · rw [if_neg h, List.find?_cons_of_neg (by simpa using h),
              List.find?_cons_of_neg (by simpa [← heq] using h)]
        · rename_i _ hne
          by_cases hfirst : first.name = name
          · rw [List.find?_cons_of_pos (by simpa using hfirst), if_neg (hfirst ▸ hne),
              List.find?_cons_of_pos (by simpa using hfirst)]
          · rw [List.find?_cons_of_neg (by simpa using hfirst), ih,
              List.find?_cons_of_neg (by simpa using hfirst)]

/-- An insertion decides the name of the entry and leaves every other name as it was. -/
theorem find?_insert (index : Index) (entry : Entry) (name : String) :
    (index.insert entry).1.find? name = if entry.name = name then some entry else index.find? name :=
  findEntry_insertEntry name entry index.entries

theorem find?_empty (name : String) : empty.find? name = none :=
  rfl

/-- What is listed under a name has that name. -/
theorem name_of_find? {index : Index} {name : String} {entry : Entry}
    (h : index.find? name = some entry) : entry.name = name := by
  simpa using List.find?_some h

/-! ### Runs of insertions -/

/-- Inserting the exports of sources one after the other inserts their entries in order. -/
theorem growth_eq_foldl (index : Index) (parts : List SourceExports) :
    index.growth parts = (allEntries parts).foldl Growth.insert (.start index) :=
  List.foldl_flatMap.symm

/-- What was reported before is carried along, and nothing depends on it. -/
theorem foldl_insert_eq (growth : Growth) (entries : List Entry) :
    entries.foldl Growth.insert growth =
      ⟨(entries.foldl Growth.insert (.start growth.index)).index,
        growth.overwrites ++ (entries.foldl Growth.insert (.start growth.index)).overwrites⟩ := by
  induction entries using List.reverseRecOn with
  | nil => simp [Growth.start]
  | append_singleton entries entry ih =>
      rw [List.foldl_concat, List.foldl_concat, ih]
      simp only [Growth.insert, List.append_assoc]

theorem growth_append (index : Index) (parts later : List SourceExports) :
    index.growth (parts ++ later) = ⟨((index.growth parts).index.growth later).index,
      (index.growth parts).overwrites ++ ((index.growth parts).index.growth later).overwrites⟩ := by
  rw [growth_eq_foldl, allEntries_append, List.foldl_append, ← growth_eq_foldl, foldl_insert_eq,
    ← growth_eq_foldl]

/-- An index that has grown by some parts grows on by later ones. -/
theorem foldl_insertAll_merge (parts later : List SourceExports) :
    later.foldl insertAll (merge parts) = merge (parts ++ later) := by
  induction later using List.reverseRecOn with
  | nil => rw [List.append_nil, List.foldl_nil]
  | append_singleton later exports ih =>
      have hgrows : merge (parts ++ later ++ [exports]) = insertAll (merge (parts ++ later)) exports := by
        rw [merge, growth_append]
        rfl
      rw [List.foldl_concat, ih, ← List.append_assoc, hgrows]

/-- After a run of insertions a name has the last entry inserted under it, or else what it had. -/
theorem find?_foldl_insert (growth : Growth) (entries : List Entry) (name : String) :
    (entries.foldl Growth.insert growth).index.find? name =
      (lastNamed name entries).or (growth.index.find? name) := by
  induction entries generalizing growth with
  | nil => rfl
  | cons entry later ih =>
      rw [List.foldl_cons, ih, Growth.insert, find?_insert, lastNamed_cons, Option.or_assoc]
      congr 1
      by_cases h : entry.name = name <;> simp [h]

theorem find?_merge (parts : List SourceExports) (name : String) :
    (merge parts).find? name = lastNamed name (allEntries parts) := by
  rw [merge, growth_eq_foldl, find?_foldl_insert, Growth.start, find?_empty, Option.or_none]

/-! ### The listing -/

theorem pairwise_names (index : Index) : (index.entries.map Entry.name).Pairwise (· < ·) :=
  List.pairwise_map.2 index.increasing

theorem nodup_names (index : Index) : (index.entries.map Entry.name).Nodup :=
  index.pairwise_names.imp fun {a b} h => by
    rintro rfl
    exact String.lt_irrefl a h

/-- The listed entries are those that are found under their names. -/
theorem mem_entries_iff {index : Index} {entry : Entry} :
    entry ∈ index.entries ↔ index.find? entry.name = some entry := by
  refine ⟨fun h => ?_, List.mem_of_find?_eq_some⟩
  cases hfind : index.find? entry.name with
  | none =>
      have := List.find?_eq_none.1 hfind entry h
      simp at this
  | some other =>
      have hname : other.name = entry.name := name_of_find? hfind
      have hother : other ∈ index.entries := List.mem_of_find?_eq_some hfind
      rw [List.inj_on_of_nodup_map index.nodup_names hother h hname]

theorem mem_names_iff {index : Index} {name : String} :
    name ∈ index.entries.map Entry.name ↔ index.find? name ≠ none := by
  rw [List.mem_map, Option.ne_none_iff_exists']
  constructor
  · rintro ⟨entry, hentry, rfl⟩
    exact ⟨entry, mem_entries_iff.1 hentry⟩
  · rintro ⟨entry, hentry⟩
    exact ⟨entry, List.mem_of_find?_eq_some hentry, name_of_find? hentry⟩

/-- Two indexes that find the same entry under every name are equal. -/
theorem ext_of_find? {index other : Index} (h : ∀ name, index.find? name = other.find? name) :
    index = other := by
  have hmem (entry : Entry) : entry ∈ index.entries ↔ entry ∈ other.entries := by
    rw [mem_entries_iff, mem_entries_iff, h]
  have hperm : index.entries.Perm other.entries :=
    (List.perm_ext_iff_of_nodup (index.nodup_names.of_map _) (other.nodup_names.of_map _)).2 hmem
  have hentries : index.entries = other.entries :=
    hperm.eq_of_pairwise (fun a b _ _ hab hba => absurd hba (String.lt_asymm hab)) index.increasing
      other.increasing
  obtain ⟨entries, _⟩ := index
  obtain ⟨entries', _⟩ := other
  cases hentries
  rfl

theorem mem_names_merge_iff (parts : List SourceExports) (name : String) :
    name ∈ (merge parts).entries.map Entry.name ↔ name ∈ (allEntries parts).map Entry.name := by
  rw [mem_names_iff, find?_merge, ne_eq, lastNamed_eq_none_iff, not_not]

/-- There are as many entries as there are different names among what was inserted. -/
theorem size_merge (parts : List SourceExports) :
    (merge parts).size = ((allEntries parts).map Entry.name).dedup.length := by
  have hperm : ((merge parts).entries.map Entry.name).Perm
      ((allEntries parts).map Entry.name).dedup :=
    (List.perm_ext_iff_of_nodup (nodup_names _) (List.nodup_dedup _)).2 fun name => by
      rw [mem_names_merge_iff, List.mem_dedup]
  rw [← hperm.length_eq, List.length_map, size]

theorem isEmpty_merge_iff (parts : List SourceExports) :
    (merge parts).isEmpty = true ↔ allEntries parts = [] := by
  rw [isEmpty, List.isEmpty_iff_length_eq_zero]
  change (merge parts).size = 0 ↔ _
  rw [size_merge, List.length_eq_zero_iff, List.dedup_eq_nil, List.map_eq_nil_iff]

theorem merge_eq_merge_iff {parts others : List SourceExports} :
    merge parts = merge others ↔
      ∀ name, lastNamed name (allEntries parts) = lastNamed name (allEntries others) := by
  constructor
  · intro h name
    rw [← find?_merge, h, find?_merge]
  · intro h
    refine ext_of_find? fun name => ?_
    rw [find?_merge, find?_merge, h]

/-- Entries that share no name can be inserted in either order. -/
theorem lastNamed_append_comm {xs ys : List Entry} (h : ∀ x ∈ xs, ∀ y ∈ ys, x.name ≠ y.name)
    (name : String) : lastNamed name (xs ++ ys) = lastNamed name (ys ++ xs) := by
  rw [lastNamed_append, lastNamed_append]
  cases hx : lastNamed name xs with
  | none => simp
  | some x =>
      cases hy : lastNamed name ys with
      | none => simp
      | some y =>
          have hx' := List.mem_filter.1 (List.mem_of_getLast? hx)
          have hy' := List.mem_filter.1 (List.mem_of_getLast? hy)
          have := h x hx'.1 y hy'.1
          simp only [beq_iff_eq] at hx' hy'
          exact absurd (hx'.2.trans hy'.2.symm) this

/-- Of the declarations of a name the last one inserted stays, with its source, and every inserted name
is listed once.  Hence the last entries of all names decide an index, and parts that share no name can
be inserted in either order. -/
theorem last_declaration_stays :
    (∀ parts : List SourceExports,
      let index := merge parts
      let inserted := allEntries parts
      (index.entries.map Entry.name).Pairwise (· < ·) ∧
      (index.declarations.map Declaration.name).Pairwise (· < ·) ∧
      (∀ name, (name ∈ index.entries.map Entry.name ↔ name ∈ inserted.map Entry.name) ∧
        (name ∈ index.declarations.map Declaration.name ↔ name ∈ inserted.map Entry.name)) ∧
      (∀ name declaration, index.get? name = some declaration → declaration.name = name) ∧
      (∀ name, index.get? name = (lastNamed name inserted).map Entry.declaration ∧
        index.origin? name = (lastNamed name inserted).map Entry.source) ∧
      index.size = (inserted.map Entry.name).dedup.length ∧
      (index.isEmpty = true ↔ inserted = [])) ∧
    (∀ parts others : List SourceExports, merge parts = merge others ↔
      ∀ name, lastNamed name (allEntries parts) = lastNamed name (allEntries others)) ∧
    ∀ before xs ys after : List SourceExports,
      (∀ x ∈ allEntries xs, ∀ y ∈ allEntries ys, x.name ≠ y.name) →
        merge (before ++ xs ++ ys ++ after) = merge (before ++ ys ++ xs ++ after) := by
  refine ⟨fun parts => ?_, fun parts others => merge_eq_merge_iff, fun before xs ys after h => ?_⟩
  · have hdeclarations : (merge parts).declarations.map Declaration.name =
        (merge parts).entries.map Entry.name := List.map_map
    have hnames := mem_names_merge_iff parts
    refine ⟨pairwise_names _, hdeclarations ▸ pairwise_names _,
      fun name => ⟨hnames name, hdeclarations ▸ hnames name⟩, fun name declaration h => ?_,
      fun name => ?_, size_merge parts, isEmpty_merge_iff parts⟩
    · obtain ⟨entry, hentry, rfl⟩ := Option.map_eq_some_iff.1 h
      exact name_of_find? hentry
    · rw [get?, origin?, find?_merge]
      exact ⟨rfl, rfl⟩
  · refine merge_eq_merge_iff.2 fun name => ?_
    have hparts (us vs : List SourceExports) : allEntries (before ++ us ++ vs ++ after) =
        allEntries before ++ (allEntries us ++ allEntries vs) ++ allEntries after := by
      simp only [allEntries_append, List.append_assoc]
    rw [hparts, hparts, lastNamed_append, lastNamed_append _ (allEntries before),
      lastNamed_append_comm h, ← lastNamed_append, ← lastNamed_append]

/-- Of three declarations of `f` the one from `b` stays, whether `g` is inserted before or after it. -/
theorem last_declaration_stays_three :
    let type : CType := ⟨"int", "int", 0, .none, .empty⟩
    let a : SourceExports := ⟨"a", [⟨"f", 2, type, []⟩, ⟨"f", 5, type, []⟩]⟩
    let b : SourceExports := ⟨"b", [⟨"f", 3, type, []⟩]⟩
    let c : SourceExports := ⟨"c", [⟨"g", 2, type, []⟩]⟩
    (∀ x ∈ allEntries [b], ∀ y ∈ allEntries [c], x.name ≠ y.name) ∧
      merge ([a] ++ [b] ++ [c] ++ []) = merge ([a] ++ [c] ++ [b] ++ []) ∧
      (merge ([a] ++ [b] ++ [c] ++ [])).get? "f" = some ⟨"f", 3, type, []⟩ ∧
      (merge ([a] ++ [b] ++ [c] ++ [])).origin? "f" = some "b" := by
  intro type a b c
  obtain ⟨hstays, -, hswap⟩ := last_declaration_stays
  obtain ⟨-, -, -, -, hlast, -⟩ := hstays ([a] ++ [b] ++ [c] ++ [])
  have hnames : ∀ x ∈ allEntries [b], ∀ y ∈ allEntries [c], x.name ≠ y.name := by
    decide
  exact ⟨hnames, hswap [a] [b] [c] [] hnames, (hlast "f").1, (hlast "f").2⟩

end Index
end ExportIndex
