/-
# Script.Proofs.Store.Contents -- equality as comparison by contents

`sameContentsWithin` compares as `equalWithin` does, but does not look whether two lists or two
dictionaries are one: it always goes through what they hold.  On acyclic values with no not-a-number
inside, both give the same answer (`Nests.sameContentsWithin_eq`), however the values share what
they hold; and not-a-number is what tells them apart (`Nests.sameContentsWithin_self_iff`).

Equal values have one size and count as true together, and reading inside them finds equal values
at equal indices (`Matches.indexGet`).
-/
import Script.Conversion
import Script.Proofs.Access.Results
import Script.Proofs.Number.Value
import Script.Proofs.Store.Equality

namespace Script

set_option autoImplicit false

namespace Store

variable {s : Store} {v w i j x y : Value} {a b : Nat} {depth : Nat}

/-- Whether two values have the same contents, comparing at most `depth` pairs of containers inside
one another. -/
def sameContentsWithin (s : Store) (depth : Nat) (v w : Value) : Attempt Bool :=
  match v, w with
  | .null, .null => .ok true
  | .bool a, .bool b => .ok (a == b)
  | .number x, .number y => .ok (x == y)
  | .string a, .string b => .ok (a == b)
  | .list a, .list b =>
      match depth with
      | 0 => .error .endless
      | depth + 1 =>
          let xs := s.items a
          let ys := s.items b
          if xs.size = ys.size then
            (xs.toList.zip ys.toList).allM fun pair => s.sameContentsWithin depth pair.1 pair.2
          else .ok false
  | .dict a, .dict b =>
      match depth with
      | 0 => .error .endless
      | depth + 1 =>
          let d := s.entries a
          let e := s.entries b
          if d.size = e.size then
            d.toList.allM fun entry =>
              match e.find? entry.1 with
              | some value => s.sameContentsWithin depth value entry.2
              | none => .ok false
          else .ok false
  | .function a, .function b => .ok (a == b)
  | .typeName a, .typeName b => .ok (a == b)
  | _, _ => .ok false

/-- Neither the value nor anything that it holds, at any depth, is not-a-number. -/
def NaNFree (s : Store) (v : Value) : Prop :=
  ∀ w, Relation.ReflTransGen s.Held v w → w.isNaN = false

namespace NaNFree

theorem isNaN (free : s.NaNFree v) : v.isNaN = false :=
  free v .refl

theorem of_held (free : s.NaNFree v) (held : s.Held v w) : s.NaNFree w :=
  fun x inside => free x (.head held inside)

end NaNFree

/-! ## One answer -/

/-- A list stands beside itself item by item. -/
theorem mem_zip_self_iff {α : Type} {items : List α} {x y : α} :
    (x, y) ∈ items.zip items ↔ x = y ∧ x ∈ items := by
  simp only [List.mem_iff_getElem?, List.getElem?_zip_eq_some]
  constructor
  · rintro ⟨i, first, second⟩
    exact ⟨Option.some.inj (first.symm.trans second), i, first⟩
  · rintro ⟨rfl, i, found⟩
    exact ⟨i, found, found⟩

/-- Going through the items of two lists gives what equality gives, if it does so for the items and
these equal themselves. -/
theorem sameContentsWithin_list
    (itself : ∀ x, s.Held (.list a) x → s.equalWithin depth x x = .ok true)
    (inside : ∀ x y, s.Held (.list a) x → s.Held (.list b) y →
      s.sameContentsWithin depth x y = s.equalWithin depth x y) :
    s.sameContentsWithin (depth + 1) (.list a) (.list b) =
      s.equalWithin (depth + 1) (.list a) (.list b) := by
  have pairs : ((s.items a).toList.zip (s.items b).toList).allM
        (fun pair => s.sameContentsWithin depth pair.1 pair.2) =
      ((s.items a).toList.zip (s.items b).toList).allM
        fun pair => s.equalWithin depth pair.1 pair.2 := by
    refine Attempt.allM_congr fun pair member => ?_
    obtain ⟨first, second⟩ := List.of_mem_zip member
    exact inside _ _ (.inl ⟨a, rfl, first⟩) (.inl ⟨b, rfl, second⟩)
  simp only [sameContentsWithin, equalWithin, pairs]
  by_cases one : a = b
  · subst one
    rw [if_pos rfl, if_pos rfl, Attempt.allM_eq_true_iff]
    rintro ⟨x, y⟩ member
    obtain ⟨rfl, held⟩ := mem_zip_self_iff.1 member
    exact itself x (.inl ⟨a, rfl, held⟩)
  · rw [if_neg one]

/-- Likewise for the entries of two dictionaries, where the values under a key change places. -/
theorem sameContentsWithin_dict
    (itself : ∀ x, s.Held (.dict a) x → s.equalWithin depth x x = .ok true)
    (inside : ∀ x y, s.Held (.dict a) x → s.Held (.dict b) y →
      s.sameContentsWithin depth y x = s.equalWithin depth y x) :
    s.sameContentsWithin (depth + 1) (.dict a) (.dict b) =
      s.equalWithin (depth + 1) (.dict a) (.dict b) := by
  have entries : ((s.entries a).toList.allM fun entry =>
        match (s.entries b).find? entry.1 with
        | some value => s.sameContentsWithin depth value entry.2
        | none => .ok false) =
      (s.entries a).toList.allM fun entry =>
        match (s.entries b).find? entry.1 with
        | some value => s.equalWithin depth value entry.2
        | none => .ok false := by
    refine Attempt.allM_congr fun entry member => ?_
    cases found : (s.entries b).find? entry.1 with
    | none => rfl
    | some value => exact inside _ _ (.inr ⟨a, entry.1, rfl, member⟩) (held_entry found)
  rw [sameContentsWithin, equalWithin]
  by_cases one : a = b
  · subst one
    rw [if_pos rfl, if_pos rfl, entries, Attempt.allM_eq_true_iff]
    intro entry member
    rw [Dict.find?_eq_some_iff.2 member]
    exact itself _ (.inr ⟨a, entry.1, rfl, member⟩)
  · rw [if_neg one]
    exact if_congr .rfl entries rfl

/-- Looking into what is compared with itself finds it equal, and so changes nothing. -/
theorem Nests.sameContentsWithin_eq :
    ∀ {depth : Nat} {v w : Value}, s.Nests depth v → s.Nests depth w → s.NaNFree v → s.NaNFree w →
      s.sameContentsWithin depth v w = s.equalWithin depth v w := by
  intro depth
  induction depth with
  | zero =>
      intro v w left right _ _
      cases v <;> cases left <;> cases w <;> rfl
  | succ depth ih =>
      intro v w left right free free'
      have itself : ∀ x, s.Held v x → s.equalWithin depth x x = .ok true := by
        intro x held
        rw [equalWithin_self, (free.of_held held).isNaN]
        rfl
      cases v <;> cases w
      case list.list a b =>
        refine sameContentsWithin_list itself fun x y held held' => ?_
        exact ih (left x held) (right y held') (free.of_held held) (free'.of_held held')
      case dict.dict a b =>
        refine sameContentsWithin_dict itself fun x y held held' => ?_
        exact ih (right y held') (left x held) (free'.of_held held') (free.of_held held)
      all_goals rfl

/-- At any depth that suffices, comparing by contents gives the answer of equality. -/
theorem Acyclic.sameContentsWithin_eq_equal (left : s.Acyclic v) (right : s.Acyclic w)
    (free : s.NaNFree v) (free' : s.NaNFree w) (deep : s.size < depth) :
    s.sameContentsWithin depth v w = s.equal v w := by
  have same := (left.nests.mono deep).sameContentsWithin_eq (right.nests.mono deep) free free'
  exact same.trans (left.equalWithin_eq_equal right deep)

/-- If a value has the same contents as itself, so has all that it holds. -/
theorem sameContentsWithin_of_held (held : s.Held v w)
    (same : s.sameContentsWithin (depth + 1) v v = .ok true) :
    s.sameContentsWithin depth w w = .ok true := by
  rcases held with ⟨a, rfl, member⟩ | ⟨a, key, rfl, member⟩
  · rw [sameContentsWithin, if_pos rfl, Attempt.allM_eq_true_iff] at same
    exact same (w, w) (mem_zip_self_iff.2 ⟨rfl, member⟩)
  · rw [sameContentsWithin, if_pos rfl, Attempt.allM_eq_true_iff] at same
    have inside := same (key, w) member
    rwa [Dict.find?_eq_some_iff.2 member] at inside

theorem isNaN_of_sameContentsWithin (same : s.sameContentsWithin depth v v = .ok true) :
    v.isNaN = false := by
  cases v with
  | number x =>
      rw [sameContentsWithin, Number.beq_self, Except.ok.injEq] at same
      exact (Bool.not_eq_eq_eq_not ..).1 same
  | _ => rfl

/-- A value has the same contents as itself if and only if there is no not-a-number inside.  This is
where equality, which takes it for one with itself, would give another answer. -/
theorem Nests.sameContentsWithin_self_iff (nests : s.Nests depth v) :
    s.sameContentsWithin depth v v = .ok true ↔ s.NaNFree v := by
  refine ⟨fun same => ?_, fun free => ?_⟩
  · induction depth generalizing v with
    | zero =>
        intro w path
        rcases path.cases_head with rfl | ⟨u, held, -⟩
        · exact isNaN_of_sameContentsWithin same
        · exact absurd held nests.not_held
    | succ depth ih =>
        intro w path
        rcases path.cases_head with rfl | ⟨u, held, path⟩
        · exact isNaN_of_sameContentsWithin same
        · exact ih (nests u held) (sameContentsWithin_of_held held same) w path
  · rw [nests.sameContentsWithin_eq nests free free, equalWithin_self, free.isNaN]
    rfl

/-! ## What equal values have in common -/

/-- Equal values count as true together. -/
theorem Matches.truthy (matched : s.Matches v w) : s.truthy v = s.truthy w := by
  cases matched with
  | same number => rfl
  | numbers equal => exact congrArg (!·) (BEq.congr_left equal)
  | lists size items => exact congrArg (fun n => !(n == 0)) size
  | dicts keys values => exact congrArg (fun n => !(n == 0)) (Dict.size_eq_of_mem_keys_iff keys)

theorem Matches.sizeOf (matched : s.Matches v w) : s.sizeOf v = s.sizeOf w := by
  cases matched with
  | same number => rfl
  | numbers equal => rfl
  | lists size items => exact congrArg Except.ok size
  | dicts keys values => exact congrArg Except.ok (Dict.size_eq_of_mem_keys_iff keys)

/-! ## Reading at equal indices -/

/-- Equal doubles have the same value, the two zeros as well. -/
theorem value?_of_beq {m n : Float} (same : (m == n) = true) :
    Number.value? m = Number.value? n := by
  have zero : Number.value? 0 = some ((0 : ℤ) : ℚ) :=
    Number.whole?_eq_some_iff.1 (by decide +kernel)
  have negativeZero : Number.value? (-0) = some ((0 : ℤ) : ℚ) :=
    Number.whole?_eq_some_iff.1 (by decide +kernel)
  obtain ⟨-, -, rfl | ⟨rfl, rfl⟩ | ⟨rfl, rfl⟩⟩ := Float.beq_iff_ne_nan_and_eq.1 same
  · rfl
  · exact zero.trans negativeZero.symm
  · exact negativeZero.trans zero.symm

/-- Equal indices stand for the same slot, and for the same key. -/
theorem index_of_equal (index : s.equal i j = .ok true) :
    (∀ r : ℚ, (∃ m, i = .number m ∧ Number.value? m = some r) ↔
      ∃ n, j = .number n ∧ Number.value? n = some r) ∧
      ∀ k, i = .string k ↔ j = .string k := by
  have kinds : i.tag? = j.tag? := by
    by_contra apart
    cases (equal_of_tag?_ne s apart).symm.trans index
  cases i <;> cases j <;> cases kinds
  case number.number m n =>
    have same := value?_of_beq (Except.ok.inj index)
    simp [same]
  case string.string text other => simp [eq_of_beq (Except.ok.inj index)]
  all_goals simp

/-- Only the slot and the key matter that an index stands for. -/
theorem indexGet_of_index
    (slots : ∀ r : ℚ, (∃ m, i = .number m ∧ Number.value? m = some r) →
      ∃ n, j = .number n ∧ Number.value? n = some r)
    (keys : ∀ k, i = .string k → j = .string k) (read : s.indexGet v i = .ok x) :
    s.indexGet v j = .ok x := by
  cases v with
  | list a =>
      obtain ⟨m, k, inside, index, whole, rfl⟩ := indexGet_list_eq_ok_iff.1 read
      obtain ⟨n, index', whole'⟩ := slots k ⟨m, index, whole⟩
      exact indexGet_list_eq_ok_iff.2 ⟨n, k, inside, index', whole', rfl⟩
  | string text =>
      obtain ⟨m, k, inside, index, whole, rfl⟩ := indexGet_string_eq_ok_iff.1 read
      obtain ⟨n, index', whole'⟩ := slots k ⟨m, index, whole⟩
      exact indexGet_string_eq_ok_iff.2 ⟨n, k, inside, index', whole', rfl⟩
  | dict a =>
      obtain ⟨k, index, rfl⟩ := indexGet_dict_eq_ok_iff.1 read
      exact indexGet_dict_eq_ok_iff.2 ⟨k, keys k index, rfl⟩
  | _ => cases read

theorem indexGet_index_iff (index : s.equal i j = .ok true) :
    s.indexGet v i = .ok x ↔ s.indexGet v j = .ok x := by
  obtain ⟨slots, keys⟩ := index_of_equal index
  exact ⟨indexGet_of_index (fun r => (slots r).1) fun k => (keys k).1,
    indexGet_of_index (fun r => (slots r).2) fun k => (keys k).2⟩

theorem NaNFree.indexGet (free : s.NaNFree v) (read : s.indexGet v i = .ok x) :
    x.isNaN = false := by
  cases v with
  | string text =>
      obtain ⟨m, k, inside, -, -, rfl⟩ := indexGet_string_eq_ok_iff.1 read
      rfl
  | list a =>
      obtain ⟨m, k, inside, -, -, rfl⟩ := indexGet_list_eq_ok_iff.1 read
      exact (free.of_held (held_item (Array.getElem?_eq_getElem inside))).isNaN
  | dict a =>
      obtain ⟨k, -, rfl⟩ := indexGet_dict_eq_ok_iff.1 read
      cases found : (s.entries a).find? k with
      | none => rfl
      | some value => exact (free.of_held (held_entry found)).isNaN
  | _ => cases read

theorem Acyclic.indexGet (acyclic : s.Acyclic v) (read : s.indexGet v i = .ok x) :
    s.Acyclic x := by
  rcases indexGet_result read with plain | held
  · exact .of_address? plain.address?
  · exact acyclic.of_held held

/-- Reading two matching values at one index gives equal values. -/
theorem Matches.indexGet (matched : s.Matches v w) (free : s.NaNFree v)
    (read : s.indexGet v i = .ok x) :
    ∃ y, s.indexGet w i = .ok y ∧ (s.equal x y = .ok true ∨ s.equal y x = .ok true) := by
  cases matched with
  | same number => exact ⟨x, read, .inl (equal_self s (free.indexGet read))⟩
  | numbers equal => cases read
  | @lists a b size items =>
      obtain ⟨m, k, inside, rfl, whole, rfl⟩ := indexGet_list_eq_ok_iff.1 read
      have inside' : k < (s.items b).size := size ▸ inside
      refine ⟨_, indexGet_list_eq_ok_iff.2 ⟨m, k, inside', rfl, whole, rfl⟩, .inl ?_⟩
      exact items k _ _ (Array.getElem?_eq_getElem inside) (Array.getElem?_eq_getElem inside')
  | @dicts a b keys values =>
      obtain ⟨k, rfl, rfl⟩ := indexGet_dict_eq_ok_iff.1 read
      refine ⟨_, indexGet_dict_eq_ok_iff.2 ⟨k, rfl, rfl⟩, .inr ?_⟩
      have known := keys k
      rw [Dict.mem_keys_iff, Dict.mem_keys_iff] at known
      cases found : (s.entries a).find? k <;> cases other : (s.entries b).find? k
      case none.none => rfl
      case some.some x y => exact values k x y found other
      all_goals simp [found, other] at known

/-- Reading equal values at one index gives equal values. -/
theorem indexGet_of_equal (left : s.Acyclic v) (right : s.Acyclic w) (free : s.NaNFree v)
    (same : s.equal v w = .ok true) (read : s.indexGet v i = .ok x) :
    ∃ y, s.indexGet w i = .ok y ∧ s.equal x y = .ok true := by
  obtain ⟨y, read', equal⟩ := ((equal_eq_true_iff left right).1 same).indexGet free read
  refine ⟨y, read', equal.elim id fun turned => ?_⟩
  rw [equal_comm (left.indexGet read) (right.indexGet read'), turned]

/-- **Equality is comparison by contents, where there is no not-a-number.**  On acyclic values
without one inside, `==` gives what comparing by contents gives.  Values that are equal count as
true together, have one size, and give equal values when they are read at equal indices. -/
theorem equality_is_comparison_by_contents (s : Store) (v w : Value) (left : s.Acyclic v)
    (right : s.Acyclic w) (free : s.NaNFree v) (free' : s.NaNFree w) :
    (∃ same, s.equal v w = .ok same ∧ s.binary .equal v w = .ok (.value (.bool same)) ∧
        ∀ depth, s.size < depth → s.sameContentsWithin depth v w = .ok same) ∧
      (s.equal v w = .ok true →
        s.truthy v = s.truthy w ∧ s.sizeOf v = s.sizeOf w ∧
          ∀ i j, s.equal i j = .ok true →
            (∀ x, s.indexGet v i = .ok x →
              ∃ y, s.indexGet w j = .ok y ∧ s.equal x y = .ok true) ∧
            ∀ y, s.indexGet w j = .ok y →
              ∃ x, s.indexGet v i = .ok x ∧ s.equal x y = .ok true) := by
  constructor
  · obtain ⟨same, compared⟩ := left.ends_equal right
    refine ⟨same, compared, (binary_of_equal compared).1, fun depth deep => ?_⟩
    exact (left.sameContentsWithin_eq_equal right free free' deep).trans compared
  · intro same
    have matched := (equal_eq_true_iff left right).1 same
    refine ⟨matched.truthy, matched.sizeOf, fun i j index => ⟨fun x read => ?_, fun y read => ?_⟩⟩
    · obtain ⟨y, read', equal⟩ := indexGet_of_equal left right free same read
      exact ⟨y, (indexGet_index_iff index).1 read', equal⟩
    · have turned := (equal_eq_true_comm left right).1 same
      have read' := (indexGet_index_iff index).2 read
      obtain ⟨x, other, equal⟩ := indexGet_of_equal right left free' turned read'
      refine ⟨x, other, ?_⟩
      rwa [equal_comm (left.indexGet other) (right.indexGet read')]

/-- A list that holds one list twice, and another that holds that list and one with the other zero
in it. -/
def twoZeros : Store where
  cells := #[.list #[.number 0], .list #[.number (-0)], .list #[.list 0, .list 0],
    .list #[.list 0, .list 1]]

theorem ordered_twoZeros : twoZeros.Ordered := by
  refine ordered_of_below ?_
  unfold Value.Below
  decide

theorem equal_whether_shared_or_not :
    twoZeros.Acyclic (.list 2) ∧ twoZeros.Acyclic (.list 3) ∧
      twoZeros.NaNFree (.list 2) ∧ twoZeros.NaNFree (.list 3) ∧
      twoZeros.binary .equal (.list 2) (.list 3) = .ok (.value (.bool true)) ∧
      twoZeros.sameContentsWithin 5 (.list 2) (.list 3) = .ok true ∧
      ∃ y, twoZeros.indexGet (.list 3) (.number 1) = .ok y ∧
        twoZeros.equal (.list 0) y = .ok true := by
  have acyclic (v : Value) : twoZeros.Acyclic v := fun a _ => ordered_twoZeros.acyclic a
  have free : twoZeros.NaNFree (.list 2) :=
    (acyclic _).nests.sameContentsWithin_self_iff.1 (by rfl)
  have free' : twoZeros.NaNFree (.list 3) :=
    (acyclic _).nests.sameContentsWithin_self_iff.1 (by rfl)
  have same : twoZeros.equal (.list 2) (.list 3) = .ok true := by rfl
  obtain ⟨⟨answer, compared, operator, contents⟩, agree⟩ :=
    equality_is_comparison_by_contents twoZeros (.list 2) (.list 3) (acyclic _) (acyclic _) free
      free'
  cases compared.symm.trans same
  obtain ⟨-, -, reads⟩ := agree same
  have read : twoZeros.indexGet (.list 2) (.number 1) = .ok (.list 0) := by rfl
  exact ⟨acyclic _, acyclic _, free, free', operator, contents 5 (by decide),
    (reads (.number 1) (.number 1) (by rfl)).1 _ read⟩

end Store

end Script
