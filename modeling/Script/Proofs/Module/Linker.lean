/-
# Script.Proofs.Module.Linker -- which imports are entered, and which one ends the linking

Where the sources of the modules are known beforehand, what linking comes to can be said without
going through it.  `Satisfiable` are the imports that can all be entered in a table, and
`Extended` is the table that has them.  Of imports that are not satisfiable those before the first
that stands in the way are entered, and `Refused` is how that one fails.

The modules read so far make no difference: a linker that is `Faithful` remembers nothing but what
its sources say, and stays so.
-/
import Mathlib
import Script.Module.Linker
import Script.Proofs.Syntax.Items

namespace Script.Module

set_option autoImplicit false

variable (sources : String → Option Source)

/-- The import stands for the function: the source of its module is known, can be read and
declares it. -/
def Supplies (decl : Import) (f : Function) : Prop :=
  ∃ source program, sources decl.module = some source ∧ Program.ofText source.code = .ok program ∧
    program.functions.find? decl.name = some f

/-- All the imports can be entered in the table. -/
structure Satisfiable (functions : FunctionTable) (imports : List Import) : Prop where
  supplied : ∀ decl ∈ imports, ∃ f, Supplies sources decl f
  fresh : ∀ decl ∈ imports, functions.contains decl.newName = false
  distinct : (imports.map (·.newName)).Nodup

/-- The new table is the old one with the functions of the imports under their new names. -/
structure Extended (imports : List Import) (old new : FunctionTable) : Prop where
  kept : ∀ name f, old.find? name = some f → new.find? name = some f
  imported : ∀ decl ∈ imports, ∃ f, Supplies sources decl f ∧ new.find? decl.newName = some f
  nothingElse : ∀ name f, new.find? name = some f →
    old.find? name = some f ∨ ∃ decl ∈ imports, decl.newName = name ∧ Supplies sources decl f
  names : new.entries.map (·.1) = old.entries.map (·.1) ++ imports.map (·.newName)

/-- The name is in the table, or an earlier import has taken it. -/
def Taken (functions : FunctionTable) (before : List Import) (name : String) : Prop :=
  functions.contains name = true ∨ ∃ decl ∈ before, decl.newName = name

/-- Why an import cannot be entered where its new name may be taken.  A cause comes in question
only if none of those above it applies. -/
inductive Refused (taken : Prop) (decl : Import) : Stop → Prop
  | notFound (unknown : sources decl.module = none) :
      Refused taken decl (.failed (.ofFault (.moduleNotFound decl.module) decl.position))
  | unreadable {source : Source} {stop : Stop} (found : sources decl.module = some source)
      (broken : Program.ofText source.code = .error stop) : Refused taken decl stop
  | notDeclared {source : Source} {program : Program} (found : sources decl.module = some source)
      (read : Program.ofText source.code = .ok program)
      (missing : program.functions.find? decl.name = none) :
      Refused taken decl (.failed (.ofFault
        (.functionNotInModule decl.module decl.name source.label) decl.position))
  | collides {f : Function} (supplied : Supplies sources decl f) (collision : taken) :
      Refused taken decl (.failed (.ofFault (.aliasCollision decl.newName) decl.position))

variable {sources} {functions new : FunctionTable} {decl : Import} {f : Function}
  {before after imports : List Import} {stop : Stop}

/-! ## Imports one by one -/

theorem Supplies.unique {g : Function} (supplied : Supplies sources decl f)
    (other : Supplies sources decl g) : f = g := by
  obtain ⟨source, program, found, read, declared⟩ := supplied
  obtain ⟨source', program', found', read', declared'⟩ := other
  cases found.symm.trans found'
  cases read.symm.trans read'
  exact Option.some.inj (declared.symm.trans declared')

theorem satisfiable_nil : Satisfiable sources functions [] :=
  ⟨by simp, by simp, by simp⟩

theorem taken_add {name : String} :
    Taken (functions.add decl.newName f) before name ↔ Taken functions (decl :: before) name := by
  have added : (functions.add decl.newName f).contains name = true ↔
      functions.contains name = true ∨ decl.newName = name := by
    rw [FunctionTable.contains, FunctionTable.find?_add, FunctionTable.contains]
    by_cases same : name = decl.newName
    · simp [same]
    · simp [same, Ne.symm same]
  rw [Taken, Taken, added, or_assoc]
  simp

/-- What can be entered behind an import is what can be entered in the table that has it. -/
theorem satisfiable_cons (supplied : Supplies sources decl f)
    (fresh : functions.contains decl.newName = false) :
    Satisfiable sources functions (decl :: imports) ↔
      Satisfiable sources (functions.add decl.newName f) imports := by
  have untaken : ∀ other : Import, (functions.add decl.newName f).contains other.newName = false ↔
      functions.contains other.newName = false ∧ other.newName ≠ decl.newName := by
    intro other
    have added : Taken (functions.add decl.newName f) [] other.newName ↔
        Taken functions [decl] other.newName := taken_add
    simp only [Taken, List.not_mem_nil, false_and, exists_false, or_false, List.mem_singleton,
      exists_eq_left] at added
    rw [← Bool.not_eq_true, added, not_or, Bool.not_eq_true, ne_comm]
  constructor
  · rintro ⟨all, free, distinct⟩
    rw [List.map_cons, List.nodup_cons] at distinct
    refine ⟨fun other member => all other (.tail _ member), fun other member => ?_, distinct.2⟩
    refine (untaken other).2 ⟨free other (.tail _ member), fun same => distinct.1 ?_⟩
    exact List.mem_map.2 ⟨other, member, same⟩
  · rintro ⟨all, free, distinct⟩
    refine ⟨List.forall_mem_cons.2 ⟨⟨f, supplied⟩, all⟩, List.forall_mem_cons.2 ⟨fresh, ?_⟩, ?_⟩
    · exact fun other member => ((untaken other).1 (free other member)).1
    · rw [List.map_cons, List.nodup_cons]
      refine ⟨fun member => ?_, distinct⟩
      obtain ⟨other, inside, same⟩ := List.mem_map.1 member
      exact ((untaken other).1 (free other inside)).2 same

theorem extended_refl (functions : FunctionTable) : Extended sources [] functions functions :=
  ⟨fun _ _ found => found, by simp, fun _ _ found => .inl found, by simp⟩

/-- A table that is extended after an import was entered is extended by that import too. -/
theorem Extended.cons (supplied : Supplies sources decl f)
    (fresh : functions.contains decl.newName = false)
    (extended : Extended sources imports (functions.add decl.newName f) new) :
    Extended sources (decl :: imports) functions new := by
  have absent : functions.find? decl.newName = none := by
    simpa [FunctionTable.contains] using fresh
  refine ⟨fun name g found => ?_, List.forall_mem_cons.2 ⟨⟨f, supplied, ?_⟩, extended.imported⟩,
    fun name g found => ?_, ?_⟩
  · refine extended.kept name g ?_
    rw [FunctionTable.find?_add, found]
    rfl
  · refine extended.kept decl.newName f ?_
    rw [FunctionTable.find?_add, absent, if_pos rfl]
    rfl
  · rcases extended.nothingElse name g found with old | ⟨other, member, same⟩
    · rw [FunctionTable.find?_add, Option.or_eq_some_iff] at old
      rcases old with old | ⟨-, own⟩
      · exact .inl old
      · obtain ⟨rfl, same⟩ := Option.ite_none_right_eq_some.1 own
        cases same
        exact .inr ⟨decl, List.mem_cons_self, rfl, supplied⟩
    · exact .inr ⟨other, List.mem_cons_of_mem _ member, same⟩
  · rw [extended.names]
    simp [FunctionTable.add]

/-- What the extended table holds can be told from the imports without their order. -/
theorem Extended.find?_eq_some_iff (extended : Extended sources imports functions new)
    {name : String} : new.find? name = some f ↔
      functions.find? name = some f ∨
        ∃ decl ∈ imports, decl.newName = name ∧ Supplies sources decl f := by
  refine ⟨extended.nothingElse name f, ?_⟩
  rintro (old | ⟨decl, member, rfl, supplied⟩)
  · exact extended.kept name f old
  · obtain ⟨g, supplied', found⟩ := extended.imported decl member
    rw [found, supplied.unique supplied']

/-- What has one cause to be refused cannot be entered. -/
theorem Refused.not_satisfiable
    (refused : Refused sources (Taken functions before decl.newName) decl stop) :
    ¬ Satisfiable sources functions (before ++ decl :: after) := by
  rintro ⟨supplied, fresh, distinct⟩
  have member : decl ∈ before ++ decl :: after := by simp
  obtain ⟨f, source, program, found, read, declared⟩ := supplied decl member
  cases refused with
  | notFound unknown =>
      rw [found] at unknown
      cases unknown
  | unreadable found' broken =>
      cases found.symm.trans found'
      cases read.symm.trans broken
  | notDeclared found' read' missing =>
      cases found.symm.trans found'
      cases read.symm.trans read'
      cases declared.symm.trans missing
  | collides _ collision =>
      rcases collision with present | ⟨other, earlier, same⟩
      · rw [fresh decl member] at present
        cases present
      · rw [List.map_append, List.nodup_append] at distinct
        have name : decl.newName ∈ (decl :: after).map (·.newName) := by simp
        exact distinct.2.2 _ (List.mem_map_of_mem earlier) _ name same

namespace Linker

/-- The table with the function that one import stands for. -/
def enterFrom (sources : String → Option Source) (decl : Import) (functions : FunctionTable) :
    Except Stop FunctionTable :=
  (receive decl (sources decl.module)).bind (enter decl functions)

/-- An import is entered if it stands for a function and its name is free, and refused if not. -/
theorem enterFrom_cases (sources : String → Option Source) (decl : Import)
    (functions : FunctionTable) :
    (∃ f, Supplies sources decl f ∧ functions.contains decl.newName = false ∧
      enterFrom sources decl functions = .ok (functions.add decl.newName f)) ∨
    ∃ stop, Refused sources (Taken functions [] decl.newName) decl stop ∧
      enterFrom sources decl functions = .error stop := by
  cases found : sources decl.module with
  | none => exact .inr ⟨_, .notFound found, by rw [enterFrom, found]; rfl⟩
  | some source =>
      cases parsed : Program.ofText source.code with
      | error stop =>
          refine .inr ⟨stop, .unreadable found parsed, ?_⟩
          rw [enterFrom, found, receive, read, parsed]
          rfl
      | ok program =>
          have asked : enterFrom sources decl functions =
              enter decl functions ⟨source.label, program.functions⟩ := by
            rw [enterFrom, found, receive, read, parsed]
            rfl
          rw [asked, enter]
          cases declared : program.functions.find? decl.name with
          | none => exact .inr ⟨_, .notDeclared found parsed declared, rfl⟩
          | some f =>
              have supplied : Supplies sources decl f := ⟨source, program, found, parsed, declared⟩
              cases present : functions.contains decl.newName with
              | true => exact .inr ⟨_, .collides supplied (.inl present), rfl⟩
              | false => exact .inl ⟨f, supplied, rfl, rfl⟩

/-! ## The modules read so far -/

/-- The modules remembered are those that the sources have. -/
def Faithful (sources : String → Option Source) (l : Linker) : Prop :=
  ∀ module loaded, l.loaded.lookup module = some loaded →
    ∃ source, sources module = some source ∧ read source = .ok loaded

theorem faithful_empty (sources : String → Option Source) : empty.Faithful sources :=
  fun _ _ found => nomatch found

/-- To remember the answer to an import keeps the linker faithful. -/
theorem Faithful.remember {l : Linker} (faithful : l.Faithful sources) (decl : Import) :
    (l.remember decl.module (receive decl (sources decl.module))).Faithful sources := by
  cases answer : receive decl (sources decl.module) with
  | error stop => exact faithful
  | ok loaded =>
      intro module other found
      rw [Linker.remember, List.lookup_append, Option.or_eq_some_iff] at found
      rcases found with old | ⟨-, new⟩
      · exact faithful module other old
      · rw [List.lookup_cons] at new
        split at new
        · rename_i same
          cases new
          cases known : sources decl.module with
          | none =>
              rw [known] at answer
              cases answer
          | some source =>
              rw [known] at answer
              exact ⟨source, (beq_iff_eq.1 same) ▸ known, answer⟩
        · cases new

variable {l : Linker}

/-- A faithful linker answers as the sources do. -/
theorem Faithful.load (faithful : l.Faithful sources) (decl : Import) :
    ∃ l', l'.Faithful sources ∧
      load (m := Id) sources l decl = (receive decl (sources decl.module), l') := by
  unfold Linker.load
  cases known : l.loaded.lookup decl.module with
  | none => exact ⟨_, faithful.remember decl, rfl⟩
  | some loaded =>
      obtain ⟨source, found, read⟩ := faithful decl.module loaded known
      refine ⟨l, faithful, ?_⟩
      rw [found, receive, read]
      rfl

/-- Linking enters the first import and goes on with the others, or ends with it. -/
theorem Faithful.link_cons (faithful : l.Faithful sources) (functions : FunctionTable)
    (decl : Import) (rest : List Import) :
    ∃ l', l'.Faithful sources ∧ link (m := Id) sources l functions (decl :: rest) =
      match enterFrom sources decl functions with
      | .error stop => ⟨.error stop, l', functions⟩
      | .ok functions => link (m := Id) sources l' functions rest := by
  obtain ⟨l', faithful', loaded⟩ := faithful.load decl
  refine ⟨l', faithful', ?_⟩
  rw [link, loaded]
  rfl

/-- Linking enters all the imports, or those before the first that is refused. -/
theorem Faithful.link_cases : ∀ (imports : List Import) {l : Linker} (functions : FunctionTable),
    l.Faithful sources → ∃ result l' new,
      link (m := Id) sources l functions imports = ⟨result, l', new⟩ ∧ l'.Faithful sources ∧
        (result = .ok () ∧ Satisfiable sources functions imports ∧
            Extended sources imports functions new ∨
          ∃ before decl after stop, imports = before ++ decl :: after ∧
            Satisfiable sources functions before ∧ Extended sources before functions new ∧
            Refused sources (Taken functions before decl.newName) decl stop ∧
            result = .error stop)
  | [], l, functions, faithful =>
      ⟨.ok (), l, functions, rfl, faithful, .inl ⟨rfl, satisfiable_nil, extended_refl functions⟩⟩
  | decl :: rest, l, functions, faithful => by
      obtain ⟨l', faithful', linked⟩ := faithful.link_cons functions decl rest
      rw [linked]
      rcases enterFrom_cases sources decl functions with ⟨f, supplied, fresh, entered⟩ |
        ⟨stop, refused, stopped⟩
      · rw [entered]
        obtain ⟨result, last, new, linked, faithful'', outcome⟩ :=
          link_cases rest (functions.add decl.newName f) faithful'
        refine ⟨result, last, new, linked, faithful'', ?_⟩
        rcases outcome with ⟨ok, all, extended⟩ |
          ⟨before, other, after, stop, split, all, extended, refused, stopped⟩
        · exact .inl ⟨ok, (satisfiable_cons supplied fresh).2 all, extended.cons supplied fresh⟩
        · refine .inr ⟨decl :: before, other, after, stop, congrArg (decl :: ·) split,
            (satisfiable_cons supplied fresh).2 all, extended.cons supplied fresh, ?_, stopped⟩
          rwa [taken_add] at refused
      · rw [stopped]
        refine ⟨.error stop, l', functions, rfl, faithful', .inr ?_⟩
        exact ⟨[], decl, rest, stop, rfl, satisfiable_nil, extended_refl functions, refused, rfl⟩

/-- Linking succeeds where all the imports can be entered, and then enters them. -/
theorem Faithful.link_ok (faithful : l.Faithful sources)
    (all : Satisfiable sources functions imports) :
    ∃ l' new, link (m := Id) sources l functions imports = ⟨.ok (), l', new⟩ ∧
      Extended sources imports functions new := by
  obtain ⟨result, l', new, linked, -, outcome⟩ := faithful.link_cases imports functions
  rcases outcome with ⟨rfl, -, extended⟩ | ⟨before, decl, after, stop, rfl, -, -, refused, -⟩
  · exact ⟨l', new, linked, extended⟩
  · exact absurd all refused.not_satisfiable

/-- It succeeds only there. -/
theorem Faithful.satisfiable_of_link (faithful : l.Faithful sources)
    (ok : (link (m := Id) sources l functions imports : Linked).result = .ok ()) :
    Satisfiable sources functions imports := by
  obtain ⟨result, l', new, linked, -, outcome⟩ := faithful.link_cases imports functions
  rw [linked] at ok
  obtain rfl : result = .ok () := ok
  rcases outcome with ⟨-, all, -⟩ | ⟨_, _, _, _, _, _, _, _, impossible⟩
  · exact all
  · cases impossible

/-- **Linking is exact, and stops at the first import that cannot be entered.**  It succeeds exactly
if all the imports can be entered together, and then adds their functions to the table and nothing
else.  Otherwise it adds the imports before the first that stands in the way, and fails with the
first cause to refuse that one. -/
theorem link_exact (faithful : l.Faithful sources) (functions : FunctionTable)
    (imports : List Import) :
    ∃ result l' new, link (m := Id) sources l functions imports = ⟨result, l', new⟩ ∧
      l'.Faithful sources ∧
      (result = .ok () ↔ Satisfiable sources functions imports) ∧
      (Satisfiable sources functions imports → Extended sources imports functions new) ∧
      (¬ Satisfiable sources functions imports → ∃ before decl after stop,
        imports = before ++ decl :: after ∧
        Satisfiable sources functions before ∧
        ¬ Satisfiable sources functions (before ++ [decl]) ∧
        Extended sources before functions new ∧
        Refused sources (Taken functions before decl.newName) decl stop ∧
        result = .error stop) := by
  obtain ⟨result, l', new, linked, faithful', outcome⟩ := faithful.link_cases imports functions
  refine ⟨result, l', new, linked, faithful', ?_⟩
  rcases outcome with ⟨rfl, all, extended⟩ |
    ⟨before, decl, after, stop, rfl, all, extended, refused, rfl⟩
  · exact ⟨⟨fun _ => all, fun _ => rfl⟩, fun _ => extended, fun not => absurd all not⟩
  · have not : ¬ Satisfiable sources functions (before ++ decl :: after) := refused.not_satisfiable
    refine ⟨⟨nofun, fun satisfied => absurd satisfied not⟩,
      fun satisfied => absurd satisfied not, fun _ => ?_⟩
    exact ⟨before, decl, after, stop, rfl, all, refused.not_satisfiable, extended, refused, rfl⟩

/-- A module `util` that declares one function. -/
def utilities (module : String) : Option Source :=
  if module = "util" then some ⟨"util.ll", "fun same(x) \x7b return x \x7d"⟩ else none

/-- That function is imported twice under the name `twice`, the first of the imports at `1:13` and
the second at `2:13`. -/
def importedTwice : List Import :=
  [⟨"util", "same", "twice", ⟨1, 13⟩⟩, ⟨"util", "same", "twice", ⟨2, 13⟩⟩]

/-- The first of the imports is entered, and the second ends the linking. -/
theorem link_imported_twice :
    ∃ l' new, link (m := Id) utilities .empty .empty importedTwice =
        ⟨.error (.failed ⟨.aliasCollision "twice", ⟨2, 13⟩, []⟩), l', new⟩ ∧
      ∃ before decl after, importedTwice = before ++ decl :: after ∧
        Extended utilities before .empty new := by
  have found : (link (m := Id) utilities .empty .empty importedTwice : Linked).result =
      .error (.failed ⟨.aliasCollision "twice", ⟨2, 13⟩, []⟩) := by cbv
  obtain ⟨result, l', new, linked, -, -, -, stops⟩ :=
    link_exact (faithful_empty utilities) .empty importedTwice
  have clash : ¬ Satisfiable utilities .empty importedTwice := fun all =>
    absurd all.distinct (by decide)
  obtain ⟨before, decl, after, stop, split, -, -, extended, -, -⟩ := stops clash
  rw [linked] at found
  obtain rfl : result = _ := found
  exact ⟨l', new, linked, before, decl, after, split, extended⟩

end Linker

end Script.Module
