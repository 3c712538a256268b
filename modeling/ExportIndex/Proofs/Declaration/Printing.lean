import ExportIndex.Proofs.Declaration.Slots
import ExportIndex.Proofs.Segment.Tokens

/-!
# Declarations in print

A declaration is printed as a signature that shows all that was kept of it but the line.

* `Declaration.print` prints a declaration, `CType.print` a type beside its tags, with a name.
* `Held` says what a segment can hold: tokens that are read again, the last of them the name.
* `held_of_run` and `run_of_held` — what a segment holds is `Held`, and what is `Held` is read from its
  print.
* `scan_print` — a declaration that a scan has found is found again in its print.
-/

namespace ExportIndex

/-- A type beside its tags, with the name of what has that type. -/
def CType.print (type : CType) (name : String) : String :=
  type.tags.print ++ type.full ++ " " ++ name

/-- A list of parameters, with commas between. -/
def Parameter.printList (parameters : List Parameter) : String :=
  ", ".intercalate (parameters.map fun parameter => parameter.type.print parameter.name)

/-- The signature that shows a declaration. -/
def Declaration.print (declaration : Declaration) : String :=
  declaration.returnType.print declaration.name ++ "(" ++
    Parameter.printList declaration.parameters ++ ")"

namespace Declaration

open Parameter (printList)
open Segment (Run Ends Intact Tokens)

variable {part : Part} {s : Segment}

/-- A name and a type that a segment of the given part can hold. -/
inductive Held (part : Part) : String → CType → Prop
  | intro {name : String} {fragments tags : List String} {type : CType}
      (htokens : Tokens part (name :: fragments)) (htags : ∀ tag ∈ tags, Comment.IsTag tag)
      (htype : CType.classify? fragments.reverse tags = some type) : Held part name type

/-! ### From a segment to what it holds -/

/-- A complete segment holds a name and a type that a segment can hold. -/
theorem held_of_run {text : List Char} (hrun : Run part .empty text s) (htop : s.nesting = 0)
    {unnamed : Flaw} {name : String} {type : CType}
    (hnamed : namedType unnamed s = .ok (name, type)) : Held part name type := by
  have hintact : Intact part s := Intact.empty.run hrun
  have htags : ∀ tag ∈ s.tags, Comment.IsTag tag := hrun.isTag (by simp [Segment.empty])
  obtain ⟨tokens, htokens, hflush⟩ := hintact.flush htop
  obtain ⟨fragments, hsplit, htype⟩ := exists_of_namedType hnamed
  obtain rfl : tokens = name :: fragments := by
    rw [hflush] at hsplit
    exact hsplit
  exact .intro htokens htags htype

theorem Holds.held {text : List Char} {name : String} {type : CType} (h : Holds part text name type) :
    Held part name type := by
  obtain ⟨s, hrun, htop, hnamed⟩ := h
  exact held_of_run hrun htop (hnamed .unnamedFunction)

/-- Every parameter that is read can be held by a slot. -/
theorem Lists.held {slots : List (List Char)} {parameters : List Parameter}
    (h : Lists slots parameters) :
    ∀ parameter ∈ parameters, Held .parameters parameter.name parameter.type := by
  cases h with
  | blank => simp
  | named _ hholds =>
      intro parameter hparameter
      obtain ⟨slot, hslot⟩ := hholds.exists_slot parameter hparameter
      exact hslot.held

/-- What a declaration is made of can be held by its segments. -/
theorem held_of_read {line : Nat} {r : Reader} {declaration : Declaration}
    (h : (read line r).1 = .ok declaration) :
    declaration.line = line ∧ Held .head declaration.name declaration.returnType ∧
      (∀ parameter ∈ declaration.parameters, Held .parameters parameter.name parameter.type) ∧
        Parameter.isVoidList declaration.parameters = false := by
  obtain ⟨delimiter, parameters, hresult, hnamed, hlist, hline, hkept⟩ := exists_of_read_ok h
  obtain ⟨head, c, -, hrun, hdelimits⟩ := Segment.exists_run_of_ok hresult
  obtain ⟨slots, -, hlists, -⟩ := exists_slots_of_readParameters (congrArg Prod.fst hlist)
  refine ⟨hline, held_of_run hrun hdelimits.nesting hnamed, ?_⟩
  rw [hkept]
  split
  · exact ⟨by simp, rfl⟩
  · rename_i hvoid
    exact ⟨hlists.held, by simpa using hvoid⟩

/-! ### From what is held to its print -/

/-- What a segment can hold is read from its print. -/
theorem run_of_held {name : String} {type : CType} (h : Held part name type) :
    ∃ s, Run part .empty (type.print name).toList s ∧ s.nesting = 0 ∧ s.isEmpty = false ∧
      ∀ unnamed, namedType unnamed s = .ok (name, type) := by
  obtain ⟨hparts, htags, htype⟩ := h
  rename_i fragments tags
  obtain ⟨htoken, hfragments⟩ := hparts.of_cons
  obtain ⟨hfull, hset, hagain⟩ := CType.of_classify? htype
  -- The tags were read in some order and with repetitions; printed is the set.
  have hwords : ∀ tag ∈ type.tags.words, Comment.IsTag tag := by
    intro tag htag
    rw [hset, TagSet.mem_ofList] at htag
    exact htags tag htag
  obtain ⟨split, hname⟩ := htoken.run type.tags.words
  refine ⟨⟨name, fragments, type.tags.words, 0, 0, split⟩, ?_, rfl, ?_, ?_⟩
  · have hprint : (type.print name).toList =
        type.tags.print.toList ++ (((CType.join fragments.reverse).toList ++ [' ']) ++ name.toList) := by
      simp [CType.print, hfull]
    rw [hprint]
    exact (Segment.run_print hwords).trans ((hfragments.run_join _).trans hname)
  · simp [Segment.isEmpty, htoken.ne_empty]
  · intro unnamed
    have hsplit : Segment.split? ⟨name, fragments, type.tags.words, 0, 0, split⟩ =
        some (name, fragments.reverse) := by
      rw [Segment.split?, Segment.tokens_flush_of_ne htoken.ne_empty]
    rw [namedType, hsplit]
    simp only [hagain]

/-- The slots of a printed list give its parameters; `lead` is the space behind a comma, if there is
one. -/
theorem exists_slots_printList {parameters : List Parameter} (hne : parameters ≠ [])
    (h : ∀ parameter ∈ parameters, Held .parameters parameter.name parameter.type)
    {lead : List Char} (hlead : Run .parameters .empty lead .empty) :
    ∃ slots, slots ≠ [] ∧ lead ++ (printList parameters).toList = [','].intercalate slots ∧
      HoldsEach slots parameters := by
  induction parameters generalizing lead with
  | nil => contradiction
  | cons parameter parameters ih =>
      obtain ⟨hparameter, hmore⟩ := List.forall_mem_cons.1 h
      obtain ⟨s, hrun, htop, -, hnamed⟩ := run_of_held hparameter
      have hslot : Holds .parameters (lead ++ (parameter.type.print parameter.name).toList)
          parameter.name parameter.type := ⟨s, hlead.trans hrun, htop, hnamed⟩
      cases parameters with
      | nil => exact ⟨_, List.cons_ne_nil _ _, by simp [printList], .cons hslot .nil⟩
      | cons second parameters =>
          have hspace : Run .parameters .empty [' '] .empty := Segment.run_space .empty rfl
          obtain ⟨slots, hslots, hlist, hholds⟩ := ih (List.cons_ne_nil second parameters) hmore hspace
          refine ⟨_, List.cons_ne_nil _ slots, ?_, .cons hslot hholds⟩
          rw [List.intercalate_cons_of_ne_nil hslots, ← hlist]
          simp only [printList, List.map_cons, String.intercalate_cons_cons, String.toList_append]
          simp

/-- A printed list is read to its parameters. -/
theorem consumes_printList {parameters : List Parameter} (hne : parameters ≠ [])
    (h : ∀ parameter ∈ parameters, Held .parameters parameter.name parameter.type) (first : Bool)
    {lead : List Char} (hlead : Run .parameters .empty lead .empty) :
    Reader.Consumes (readParameters first) (lead ++ ((printList parameters).toList ++ [')']))
      (.ok parameters) := by
  obtain ⟨slots, hslots, hlist, hholds⟩ := exists_slots_printList hne h hlead
  rw [← List.append_assoc, hlist]
  exact consumes_of_holdsEach hholds hslots first

/-- An empty list is read as one. -/
theorem consumes_emptyList : Reader.Consumes (readParameters true) [')'] (.ok []) :=
  consumes_of_done (.intro (.refl .empty) (.delimiter (.closing rfl rfl))) rfl

/-- A declaration that a scan has found is found again in its print, which ends with it. -/
theorem scan_print {text : List Char} {start line finish : Nat} {declaration : Declaration}
    (h : scan text start line = .ok (declaration, finish)) :
    scan declaration.print.toList 0 declaration.line =
      .ok (declaration, declaration.print.toList.length) := by
  obtain ⟨-, hhead, hparameters, hvoid⟩ := held_of_read (finish_add_length_rest h).1
  obtain ⟨s, hrun, htop, -, hnamed⟩ := run_of_held hhead
  have hends : Ends .head .empty ((declaration.returnType.print declaration.name).toList ++ ['('])
      (.ok .opening) s := .intro hrun (.delimiter (.opening rfl htop))
  have hverdict : headVerdict (.ok .opening) s = .ok (declaration.name, declaration.returnType) := by
    rw [headVerdict, hnamed]
    rfl
  have hlist : Reader.Consumes (readParameters true)
      ((printList declaration.parameters).toList ++ [')']) (.ok declaration.parameters) := by
    by_cases hempty : declaration.parameters = []
    · rw [hempty]
      exact consumes_emptyList
    · exact consumes_printList hempty hparameters true (.refl .empty)
  have hprint : declaration.print.toList.drop 0 =
      (declaration.returnType.print declaration.name).toList ++ ['('] ++
        ((printList declaration.parameters).toList ++ [')']) ++ [] := by
    simp [Declaration.print, printList]
  rw [scan_of_consumes hprint (consumes_read hends hverdict hlist)]
  -- The list that is printed never stands for no parameters unless it is empty.
  have hkept : (if Parameter.isVoidList declaration.parameters then []
      else declaration.parameters) = declaration.parameters := by
    rw [hvoid]
    rfl
  simp only [Except.map, hkept]
  simp [Declaration.print, printList]

/-- A declaration as it may stand in a source, and its print. -/
theorem scan_print_tagged :
    ∃ declaration finish,
      scan "x /** slow  api */vector< int >*&at(int * p,/*no*/ f)".toList 1 7 =
        .ok (declaration, finish) ∧
      declaration.print = "/** api slow */ vector< int >*& at(int* p,  f)" ∧
      scan declaration.print.toList 0 declaration.line =
        .ok (declaration, declaration.print.toList.length) := by
  have hprint : ((scan "x /** slow  api */vector< int >*&at(int * p,/*no*/ f)".toList 1 7).toOption.map
      fun found => found.1.print) = some "/** api slow */ vector< int >*& at(int* p,  f)" := by
    decide +kernel
  cases hscan : scan "x /** slow  api */vector< int >*&at(int * p,/*no*/ f)".toList 1 7 with
  | error error =>
      rw [hscan] at hprint
      contradiction
  | ok found =>
      obtain ⟨declaration, finish⟩ := found
      rw [hscan] at hprint
      injection hprint with hprint
      exact ⟨declaration, finish, rfl, hprint, scan_print hscan⟩

end Declaration
end ExportIndex
