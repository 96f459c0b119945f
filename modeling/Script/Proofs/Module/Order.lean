/-
# Script.Proofs.Module.Order -- imports in another order

Which imports can be entered together, and what the table holds that has them, does not
depend on their order: each is satisfied by its own module, their new names must differ from
each other and from what the table holds, and the functions stand under these names.  So a
list of imports can be sorted, or two lists merged in any way, without a change to what is
linked (`link_reordered`).  What depends on the order is which import a failed linking blames.
-/
import Script.Proofs.Module.Linker

namespace Script.Module

set_option autoImplicit false

variable {sources : String → Option Source} {functions new new' : FunctionTable}
  {imports reordered : List Import}

/-- Imports that can all be entered can be entered in any order. -/
theorem Satisfiable.perm (all : Satisfiable sources functions imports)
    (perm : imports.Perm reordered) : Satisfiable sources functions reordered where
  supplied decl member := all.supplied decl (perm.mem_iff.2 member)
  fresh decl member := all.fresh decl (perm.mem_iff.2 member)
  distinct := (perm.map (·.newName)).nodup_iff.1 all.distinct

/-- Tables extended by the same imports in different orders hold the same. -/
theorem Extended.find?_perm (extended : Extended sources imports functions new)
    (extended' : Extended sources reordered functions new') (perm : imports.Perm reordered)
    (name : String) : new.find? name = new'.find? name := by
  refine Option.ext fun f => ?_
  rw [extended.find?_eq_some_iff, extended'.find?_eq_some_iff]
  have same : (∃ decl ∈ imports, decl.newName = name ∧ Supplies sources decl f) ↔
      ∃ decl ∈ reordered, decl.newName = name ∧ Supplies sources decl f :=
    exists_congr fun decl => and_congr_left fun _ => perm.mem_iff
  rw [same]

namespace Linker

/-- **The order of imports does not matter.**  Imports that are taken in another order are entered
in a table exactly if they were before, and the tables then hold the same function under every
name; whatever modules either linker has read already. -/
theorem link_reordered {l l' : Linker} (faithful : l.Faithful sources)
    (faithful' : l'.Faithful sources) (functions : FunctionTable)
    (perm : imports.Perm reordered) :
    ∃ first second : Linked, link (m := Id) sources l functions imports = first ∧
      link (m := Id) sources l' functions reordered = second ∧
      (first.result = .ok () ↔ second.result = .ok ()) ∧
      (first.result = .ok () →
        (∀ name, first.functions.find? name = second.functions.find? name) ∧
        (first.functions.entries.map (·.1)).Perm (second.functions.entries.map (·.1))) := by
  refine ⟨_, _, rfl, rfl, ?_⟩
  by_cases all : Satisfiable sources functions imports
  · obtain ⟨_, new, linked, extended⟩ := faithful.link_ok all
    obtain ⟨_, new', linked', extended'⟩ := faithful'.link_ok (all.perm perm)
    rw [linked, linked']
    refine ⟨by simp, fun _ => ⟨extended.find?_perm extended' perm, ?_⟩⟩
    dsimp only
    rw [extended.names, extended'.names]
    exact (perm.map (·.newName)).append_left _
  · have not : ¬ Satisfiable sources functions reordered := fun all' => all (all'.perm perm.symm)
    have fails := fun ok => all (faithful.satisfiable_of_link ok)
    have fails' := fun ok => not (faithful'.satisfiable_of_link ok)
    exact ⟨⟨fun ok => absurd ok fails, fun ok => absurd ok fails'⟩, fun ok => absurd ok fails⟩

/-- One function imported under its own name and under another. -/
def importedApart : List Import :=
  [⟨"util", "same", "same", ⟨1, 13⟩⟩, ⟨"util", "same", "other", ⟨2, 13⟩⟩]

/-- The other way round the names stand in the other order, and nothing else changes. -/
theorem link_apart_reversed :
    importedApart.Perm importedApart.reverse ∧
      ∃ table other : Linked,
        link (m := Id) utilities empty .empty importedApart = table ∧
        link (m := Id) utilities empty .empty importedApart.reverse = other ∧
        table.result = .ok () ∧ other.result = .ok () ∧
        table.functions.entries.map (·.1) = ["same", "other"] ∧
        other.functions.entries.map (·.1) = ["other", "same"] ∧
        ∀ name, table.functions.find? name = other.functions.find? name := by
  have perm : importedApart.Perm importedApart.reverse := (List.reverse_perm _).symm
  obtain ⟨table, other, linked, linked', succeeds, agree⟩ :=
    link_reordered (faithful_empty utilities) (faithful_empty utilities) .empty perm
  have ok : table.result = .ok () := by
    rw [← linked]
    cbv
  refine ⟨perm, table, other, linked, linked', ok, succeeds.1 ok, ?_, ?_, (agree ok).1⟩
  · rw [← linked]
    cbv
  · rw [← linked']
    cbv

end Linker

end Script.Module
