/-
# Script.Proofs.Syntax.Items -- a program item by item

A program is read item by item: each is put behind those that were read before it, if its
name is new.  `Program.extend` is the program after some more items; it is distinct
exactly if every item was new when its turn came.
-/
import Script.Proofs.Syntax.Grammar

namespace Script

set_option autoImplicit false

namespace FunctionTable

theorem contains_eq_false {t : FunctionTable} {name : String} :
    t.contains name = false ↔ name ∉ t.entries.map (·.1) := by
  simp only [contains, find?, Option.isSome_eq_false_iff, Option.isNone_iff_eq_none,
    List.lookup_eq_none_iff, bne_iff_ne]
  constructor
  · intro absent member
    obtain ⟨entry, found, same⟩ := List.mem_map.1 member
    exact absent entry found same.symm
  · intro missing entry found same
    exact missing (List.mem_map.2 ⟨entry, found, same.symm⟩)

end FunctionTable

namespace Program

/-- Functions have different names, and no two imports agree. -/
structure Distinct (p : Program) : Prop where
  functions : (p.functions.entries.map (·.1)).Nodup
  imports : p.imports.Pairwise fun earlier later => later.agrees earlier = false

/-- The program with further items behind those it has. -/
def extend (p : Program) (items : List Item) : Program where
  functions := ⟨p.functions.entries ++ (ofItems items).functions.entries⟩
  imports := p.imports ++ (ofItems items).imports

theorem extend_nil (p : Program) : p.extend [] = p := by
  simp [extend, ofItems]

theorem extend_borrowing (p : Program) (decl : Import) (items : List Item) :
    extend { p with imports := p.imports ++ [decl] } items =
      p.extend (.borrowing decl :: items) := by
  simp [extend, ofItems, List.filterMap_cons, Item.import?, Item.function?]

theorem extend_function (p : Program) (f : Function) (items : List Item) :
    extend { p with functions := p.functions.add f.name f } items =
      p.extend (.function f :: items) := by
  simp [extend, ofItems, List.filterMap_cons, Item.import?, Item.function?, FunctionTable.add]

theorem extend_empty (items : List Item) : empty.extend items = ofItems items := by
  simp [extend, empty, FunctionTable.empty]

theorem distinct_empty : empty.Distinct :=
  ⟨List.nodup_nil, List.Pairwise.nil⟩

theorem Distinct.borrow {p : Program} (distinct : p.Distinct) {decl : Import}
    (new : p.imports.any decl.agrees = false) :
    Distinct { p with imports := p.imports ++ [decl] } := by
  refine ⟨distinct.functions, ?_⟩
  refine List.pairwise_append.2 ⟨distinct.imports, List.pairwise_singleton .., ?_⟩
  intro earlier member later same
  rw [List.mem_singleton.1 same]
  simpa using List.any_eq_false.1 new earlier member

theorem Distinct.declare {p : Program} (distinct : p.Distinct) {f : Function}
    (new : p.functions.contains f.name = false) :
    Distinct { p with functions := p.functions.add f.name f } := by
  refine ⟨?_, distinct.imports⟩
  have absent := FunctionTable.contains_eq_false.1 new
  simp only [FunctionTable.add, List.map_append, List.map_cons, List.map_nil]
  have one : [f.name].Nodup := List.nodup_cons.2 ⟨List.not_mem_nil, List.nodup_nil⟩
  refine List.nodup_append.2 ⟨distinct.functions, one, ?_⟩
  intro name member other same
  rw [List.mem_singleton.1 same]
  intro equal
  exact absent (equal ▸ member)

/-- An import among distinct ones agrees with none before it. -/
theorem Distinct.new_import {p : Program} {decl : Import} {items : List Item}
    (distinct : (p.extend (.borrowing decl :: items)).Distinct) :
    p.imports.any decl.agrees = false := by
  have apart := (List.pairwise_append.1 distinct.imports).2.2
  refine List.any_eq_false.2 fun earlier member => ?_
  have later : decl ∈ (ofItems (.borrowing decl :: items)).imports := by
    simp [ofItems, List.filterMap_cons, Item.import?]
  simp [apart earlier member decl later]

theorem Distinct.new_function {p : Program} {f : Function} {items : List Item}
    (distinct : (p.extend (.function f :: items)).Distinct) :
    p.functions.contains f.name = false := by
  refine FunctionTable.contains_eq_false.2 fun member => ?_
  have names := distinct.functions
  rw [show (p.extend (.function f :: items)).functions.entries = p.functions.entries ++
    (ofItems (.function f :: items)).functions.entries from rfl, List.map_append] at names
  have later : f.name ∈ (ofItems (.function f :: items)).functions.entries.map (·.1) := by
    simp [ofItems, List.filterMap_cons, Item.function?]
  exact (List.nodup_append.1 names).2.2 f.name member f.name later rfl

end Program

end Script
