/-
# Script.Proofs.Store.Growth -- what is stored while further containers are made

A value is `Stored` when every container that it is or holds, at any depth, is there.  As long as
containers are only added, such a value holds what it held: it reaches the same containers
(`Extends.reaches_iff`), is acyclic if it was (`Extends.acyclic`), and compares with others as
before (`Extends.equal_eq`).
-/
import Script.Proofs.Eval.ReadOnly
import Script.Proofs.Store.Equality

namespace Script

set_option autoImplicit false

namespace Store

variable {s s' s'' : Store} {v w : Value} {a : Nat}

/-- Every container that the value is, or holds at some depth, is there. -/
def Stored (s : Store) (v : Value) : Prop :=
  ∀ a, s.Reaches v a → a < s.size

theorem Stored.of_address? (plain : v.address? = none) : s.Stored v := by
  rintro a ⟨outer, address, -⟩
  rw [plain] at address
  cases address

theorem Stored.of_held (stored : s.Stored v) (held : s.Held v w) : s.Stored w :=
  fun a reaches => stored a (reaches.of_held held)

theorem Stored.address_lt (stored : s.Stored v) (address : v.address? = some a) : a < s.size :=
  stored a ⟨a, address, .refl⟩

namespace Extends

theorem refl (s : Store) : s.Extends s :=
  List.prefix_rfl

theorem trans (first : s.Extends s') (second : s'.Extends s'') : s.Extends s'' :=
  List.IsPrefix.trans first second

theorem newList (s : Store) (items : Array Value) : s.Extends (s.newList items).2 :=
  s.extends_push _

theorem cells (extended : s.Extends s') (there : a < s.size) : s'.cells[a]? = s.cells[a]? := by
  obtain ⟨more, split⟩ := extended
  rw [← Array.getElem?_toList, ← Array.getElem?_toList, ← split]
  exact List.getElem?_append_left there

theorem items (extended : s.Extends s') (there : a < s.size) : s'.items a = s.items a := by
  simp only [Store.items, extended.cells there]

theorem entries (extended : s.Extends s') (there : a < s.size) : s'.entries a = s.entries a := by
  simp only [Store.entries, extended.cells there]

theorem inside_iff {inner outer : Nat} (extended : s.Extends s') (there : outer < s.size) :
    s'.Inside inner outer ↔ s.Inside inner outer := by
  simp only [Inside, extended.cells there]

/-- A stored value reaches what it reached, by the same way: the induction is on the way, from the
value on. -/
theorem chain {outer : Nat} (extended : s.Extends s')
    (stored : ∀ b, Relation.ReflTransGen s.Inside b outer → b < s.size)
    (path : Relation.ReflTransGen s'.Inside a outer) : Relation.ReflTransGen s.Inside a outer := by
  induction path using Relation.ReflTransGen.head_induction_on with
  | refl => exact .refl
  | head inside _ ih => exact .head ((extended.inside_iff (stored _ ih)).1 inside) ih

theorem reaches_iff (extended : s.Extends s') (stored : s.Stored v) :
    s'.Reaches v a ↔ s.Reaches v a := by
  refine exists_congr fun outer => and_congr_right fun address => ?_
  have below : ∀ b, Relation.ReflTransGen s.Inside b outer → b < s.size :=
    fun b path => stored b ⟨outer, address, path⟩
  refine ⟨extended.chain below, fun path => ?_⟩
  induction path using Relation.ReflTransGen.head_induction_on with
  | refl => exact .refl
  | head inside path ih => exact .head ((extended.inside_iff (below _ path)).2 inside) ih

theorem acyclic (extended : s.Extends s') (stored : s.Stored v) (acyclic : s.Acyclic v) :
    s'.Acyclic v := by
  intro a reaches round
  obtain ⟨outer, address, path⟩ := (extended.reaches_iff stored).1 reaches
  have below : ∀ b, Relation.ReflTransGen s.Inside b a → b < s.size :=
    fun b way => stored b ⟨outer, address, way.trans path⟩
  obtain ⟨b, way, last⟩ := Relation.TransGen.tail'_iff.1 round
  have last := (extended.inside_iff (below a .refl)).1 last
  refine acyclic a ⟨outer, address, path⟩ (.tail' (extended.chain (fun c way => ?_) way) last)
  exact below c (way.tail last)

/-- Stored values are compared as they were: the induction is on the depth. -/
theorem equalWithin_eq (extended : s.Extends s') :
    ∀ {depth : Nat} {v w : Value}, s.Stored v → s.Stored w →
      s'.equalWithin depth v w = s.equalWithin depth v w := by
  intro depth
  induction depth with
  | zero =>
      intro v w _ _
      cases v <;> cases w <;> rfl
  | succ depth ih =>
      intro v w left right
      cases v <;> cases w
      case list.list a b =>
        simp only [equalWithin, extended.items (left.address_lt rfl),
          extended.items (right.address_lt rfl)]
        refine if_congr .rfl rfl (if_congr .rfl (Attempt.allM_congr fun pair member => ?_) rfl)
        obtain ⟨first, second⟩ := List.of_mem_zip member
        exact ih (left.of_held (.inl ⟨a, rfl, first⟩)) (right.of_held (.inl ⟨b, rfl, second⟩))
      case dict.dict a b =>
        simp only [equalWithin, extended.entries (left.address_lt rfl),
          extended.entries (right.address_lt rfl)]
        refine if_congr .rfl rfl (if_congr .rfl (Attempt.allM_congr fun entry member => ?_) rfl)
        split
        · rename_i value found
          exact ih (right.of_held (held_entry found))
            (left.of_held (.inr ⟨a, entry.1, rfl, member⟩))
        · rfl
      all_goals rfl

/-- Acyclic values are compared as they were. -/
theorem equal_eq (extended : s.Extends s') (left : s.Stored v) (right : s.Stored w)
    (first : s.Acyclic v) (second : s.Acyclic w) : s'.equal v w = s.equal v w := by
  have deep : s.size < s'.size + 1 := Nat.lt_succ_of_le extended.size
  rw [← (extended.acyclic left first).equalWithin_eq_equal (extended.acyclic right second)
    (Nat.lt_succ_self _), extended.equalWithin_eq left right,
    first.equalWithin_eq_equal second deep]

end Extends

end Store

end Script
