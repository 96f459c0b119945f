/-
# Script.Proofs.Module.NewName -- what an import under a new name changes

An imported function is entered as its module declares it, under the new name alone.  Calling it
by that name comes to what calling it by its own name does in the program that imports it plainly
(`new_name_renames`), as long as no code refers to the function.  A reference goes by a name, and
the name is looked up in the table of the importing program: a function that calls itself does not
find itself there (`new_name_hides_own`).
-/
import Script.Proofs.Eval.Renaming
import Script.Job
import Script.Proofs.Module.Order

namespace Script

set_option autoImplicit false

/-- The same import, but under the name that the module declares. -/
def Import.plain (decl : Import) : Import :=
  { decl with newName := decl.name }

namespace Module

variable {sources : String → Option Source} {functions t u : FunctionTable}
  {before after others : List Import} {decl other : Import} {f : Function}

/-- Where a name is not in the extended table, it is neither an old one nor one of an import. -/
theorem Extended.absent {imports : List Import} {name : String}
    (extended : Extended sources imports functions t) (absent : t.find? name = none) :
    functions.contains name = false ∧ ∀ decl ∈ imports, decl.newName ≠ name := by
  refine ⟨?_, ?_⟩
  · rw [FunctionTable.contains, Option.isSome_eq_false_iff, Option.isNone_iff_eq_none]
    by_contra present
    obtain ⟨f, found⟩ := Option.ne_none_iff_exists'.1 present
    cases absent.symm.trans (extended.kept name f found)
  · rintro decl member rfl
    obtain ⟨f, -, found⟩ := extended.imported decl member
    cases absent.symm.trans found

/-- Where an import can be entered under a new name, it can be entered under its own if that is
free. -/
theorem Satisfiable.plain (all : Satisfiable sources functions (decl :: others))
    (free : functions.contains decl.name = false)
    (unused : ∀ other ∈ others, other.newName ≠ decl.name) :
    Satisfiable sources functions (decl.plain :: others) where
  supplied := by
    obtain ⟨own, rest⟩ := List.forall_mem_cons.1 all.supplied
    exact List.forall_mem_cons.2 ⟨own, rest⟩
  fresh := List.forall_mem_cons.2 ⟨free, (List.forall_mem_cons.1 all.fresh).2⟩
  distinct := by
    have distinct := all.distinct
    rw [List.map_cons, List.nodup_cons] at distinct ⊢
    refine ⟨fun member => ?_, distinct.2⟩
    obtain ⟨other, inside, same⟩ := List.mem_map.1 member
    exact unused other inside same

/-- Two programs that differ in the name of one import hold its function under these names. -/
theorem Extended.heldAs (all : Satisfiable sources functions (before ++ decl :: after))
    (extended : Extended sources (before ++ decl :: after) functions t)
    (extended' : Extended sources (before ++ decl.plain :: after) functions u)
    (lacks : t.find? decl.name = none) (user : Intrinsic.ofName? decl.newName = none)
    (user' : Intrinsic.ofName? decl.name = none) :
    ∃ f, Supplies sources decl f ∧ Eval.HeldAs f decl.newName decl.name t u := by
  obtain ⟨f, supplied, here⟩ := extended.imported decl (by simp)
  obtain ⟨g, supplied', there⟩ := extended'.imported decl.plain (by simp)
  obtain rfl : g = f := supplied'.unique supplied
  have different : decl.newName ≠ decl.name := (extended.absent lacks).2 decl (by simp)
  have alone := (all.perm List.perm_middle).distinct
  rw [List.map_cons, List.nodup_cons] at alone
  refine ⟨g, supplied, here, there, lacks, ?_, fun name notNew notOwn => ?_, user, user'⟩
  · refine Option.eq_none_iff_forall_ne_some.2 fun h found => ?_
    rcases extended'.nothingElse _ h found with old | ⟨other, member, same, -⟩
    · have fresh := all.fresh decl (by simp)
      rw [FunctionTable.contains, old] at fresh
      cases fresh
    · rcases List.mem_cons.1 (List.perm_middle.mem_iff.1 member) with rfl | inside
      · exact different same.symm
      · exact alone.1 (same ▸ List.mem_map_of_mem inside)
  · refine Option.ext fun h => ?_
    rw [extended.find?_eq_some_iff, extended'.find?_eq_some_iff]
    refine or_congr_right (exists_congr fun other => ?_)
    rw [List.perm_middle.mem_iff, List.perm_middle.mem_iff, List.mem_cons, List.mem_cons]
    constructor
    · rintro ⟨rfl | inside, same, supplied⟩
      · exact absurd same.symm notNew
      · exact ⟨.inr inside, same, supplied⟩
    · rintro ⟨rfl | inside, same, supplied⟩
      · exact absurd same.symm notOwn
      · exact ⟨.inr inside, same, supplied⟩

namespace Linker

/-- **An import under a new name only renames.**  Where linking enters it and its own name stands
for nothing, the program that imports it plainly is linked too, and has the function under its own
name.  A call by the new name in the one program comes to what a call by the own name does in the
other: the same value or, up to the names in traces and messages, the same failure at the same
places, with the same output, store and scopes.  The two part only where one of the calls comes to
code that looks up a name (`Eval.LookedUp`) and fails there: the own name, which stands for nothing
in the first program, or the new one, which stands for nothing in the second.  A name of an
intrinsic would stand for the intrinsic. -/
theorem new_name_renames {l l' linked : Linker} (faithful : l.Faithful sources)
    (faithful' : l'.Faithful sources) (user : Intrinsic.ofName? decl.newName = none)
    (user' : Intrinsic.ofName? decl.name = none)
    (entered : link (m := Id) sources l functions (before ++ decl :: after) = ⟨.ok (), linked, t⟩)
    (hidden : t.find? decl.name = none) :
    ∃ linked' u, link (m := Id) sources l' functions (before ++ decl.plain :: after) =
        ⟨.ok (), linked', u⟩ ∧
      (∃ f, Supplies sources decl f ∧ t.find? decl.newName = some f ∧
        u.find? decl.name = some f) ∧
      ∀ args position s,
        let renamed := Eval.callFunction t decl.newName args position s
        let plain := Eval.callFunction u decl.name args position s
        (∃ failure s', renamed = .failed failure s' ∧ Eval.LookedUp t
          ⟨Eval.limit, .apply position decl.newName args, s⟩ decl.name failure) ∨
        (∃ failure s', plain = .failed failure s' ∧ Eval.LookedUp u
          ⟨Eval.limit, .apply position decl.name args, s⟩ decl.newName failure) ∨
        renamed.Renamed plain := by
  have all := faithful.satisfiable_of_link (congrArg Linked.result entered)
  obtain ⟨_, _, entered', extended⟩ := faithful.link_ok all
  obtain ⟨-, rfl, rfl⟩ := Linked.mk.inj (entered.symm.trans entered')
  have absent := extended.absent hidden
  have all' : Satisfiable sources functions (before ++ decl.plain :: after) := by
    refine Satisfiable.perm (Satisfiable.plain (all.perm List.perm_middle) absent.1 ?_)
      List.perm_middle.symm
    intro other inside
    refine absent.2 other (List.perm_middle.mem_iff.2 (List.mem_cons_of_mem _ inside))
  obtain ⟨linked', u, plain, extended'⟩ := faithful'.link_ok all'
  obtain ⟨f, supplied, held⟩ := Extended.heldAs all extended extended' hidden user user'
  refine ⟨linked', u, plain, ⟨f, supplied, held.here, held.there⟩, fun args position s => ?_⟩
  exact Eval.apply_renamed held position args Eval.limit s

/-- The function of `utilities`, imported as `twice`. -/
def renamedSame : Import :=
  ⟨"util", "same", "twice", ⟨1, 13⟩⟩

/-- That function, as its module declares it. -/
def sameDeclared : Function :=
  ⟨"same", ["x"], [.return ⟨1, 15⟩ (some (.name ⟨1, 22⟩ "x"))], ⟨1, 5⟩⟩

/-- It returns its argument by either name. -/
theorem new_name_of_same :
    ∃ linked t linked' u,
      link (m := Id) utilities empty .empty [renamedSame] = ⟨.ok (), linked, t⟩ ∧
      link (m := Id) utilities empty .empty [renamedSame.plain] = ⟨.ok (), linked', u⟩ ∧
      t.find? "same" = none ∧ t.find? "twice" = some sameDeclared ∧
      let s := State.start (.lines [])
      (∃ s', Eval.callFunction t "twice" [.bool true] ⟨3, 8⟩ s = .done (.bool true) s') ∧
      (Eval.callFunction t "twice" [.bool true] ⟨3, 8⟩ s).Renamed
        (Eval.callFunction u "same" [.bool true] ⟨3, 8⟩ s) := by
  have result : (link (m := Id) utilities empty .empty [renamedSame] : Linked).result = .ok () := by
    cbv
  have held : (link (m := Id) utilities empty .empty [renamedSame] : Linked).functions =
      ⟨[("twice", sameDeclared)]⟩ := by cbv
  have held' : (link (m := Id) utilities empty .empty [renamedSame.plain] : Linked).functions =
      ⟨[("same", sameDeclared)]⟩ := by cbv
  have entered : link (m := Id) utilities empty .empty ([] ++ renamedSame :: []) =
      ⟨.ok (), _, ⟨[("twice", sameDeclared)]⟩⟩ :=
    congrArg₂ (fun result functions => Linked.mk result _ functions) result held
  obtain ⟨linked', u, plain, -, agree⟩ :=
    new_name_renames (faithful_empty utilities) (faithful_empty utilities) (by decide) (by decide)
      entered rfl
  obtain rfl : (⟨[("same", sameDeclared)]⟩ : FunctionTable) = u :=
    held'.symm.trans (congrArg Linked.functions plain)
  refine ⟨_, _, linked', _, entered, plain, rfl, rfl, ⟨_, rfl⟩, ?_⟩
  rcases agree [.bool true] ⟨3, 8⟩ (.start (.lines [])) with
    ⟨_, _, failed, -⟩ | ⟨_, _, failed, -⟩ | renamed
  · cases failed
  · cases failed
  · exact renamed

/-- A module with a function that calls itself, one that refers to a name, and one that does neither. -/
def selfish (module : String) : Option Source :=
  if module = "m" then
    some ⟨"m.ll", "fun down(x) \x7b if (x) \x7b return down(null) \x7d return \"done\" \x7d
fun peek() \x7b return seen \x7d
fun plain() \x7b return \"plain\" \x7d"⟩
  else none

/-- What a program that imports from that module comes to, and what it writes. -/
def runSelfish (source : String) : Ending × String :=
  runText (m := Id) selfish source (.lines [])

/-- Under a new name a function does not find itself.  The new name stands for the function only in
the program that gives it.  A name of an intrinsic goes on standing for that. -/
theorem new_name_hides_own :
    runSelfish "import m.down as dive fun main() \x7b return dive(true) \x7d" =
        (.failed ⟨.undefinedFunction "down", ⟨1, 31⟩, [⟨"dive", ⟨1, 43⟩⟩, ⟨"main", .start⟩]⟩, "") ∧
      runSelfish "import m.down fun main() \x7b return down(true) \x7d" = (.value (.string "done") .empty, "") ∧
      runSelfish "import m.peek as seen fun main() \x7b return seen() \x7d" =
        (.value (.function "seen") .empty, "") ∧
      runSelfish "import m.peek fun main() \x7b return peek() \x7d" =
        (.failed ⟨.undefinedVariable "seen", ⟨2, 21⟩, [⟨"peek", ⟨1, 35⟩⟩, ⟨"main", .start⟩]⟩, "") ∧
      runSelfish "import m.plain as readln fun main() \x7b return readln() \x7d" =
        (.value (.string "") .empty, "") ∧
      runSelfish "import m.plain fun main() \x7b return plain() \x7d" =
        (.value (.string "plain") .empty, "") := by
  refine ⟨?_, ?_, ?_, ?_, ?_, ?_⟩
  all_goals cbv

end Linker

end Module

end Script
