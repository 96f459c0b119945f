/-
# Script.Proofs.Operator.Joining -- lists and texts joined by +

`+`, `size` and the index count in the same units, items or characters: a joined value has the
size of both operands together, and at each index the part of the one or of the other
(`Store.Joins`).  Sizes are doubles, and exact below `2 ^ 53`.

Joining lists makes a third one, which shares the items and nothing else: whatever happens to
the store later, each of the three keeps its contents as long as no write goes through it.
-/
import Script.Conversion
import Script.Proofs.Eval.Evolution
import Script.Proofs.Number.Whole

namespace Script

set_option autoImplicit false

namespace Store

variable {s s' : Store} {v w r index : Value} {a b : Nat} {x y : Float}

/-- `v + w` is `r`, and the store is the second one then. -/
def Adds (s : Store) (v w r : Value) (s' : Store) : Prop :=
  ∃ product, s.binary .add v w = .ok product ∧ s.realize product = (r, s')

/-- What `size` gives. -/
def sizeNumber (s : Store) (v : Value) : Attempt Float := do
  .ok (Number.ofNat (← s.sizeOf v))

/-- The first value is the other two, one after the other. -/
structure Joins (s : Store) (r v w : Value) : Prop where
  size : ∃ x y, s.sizeNumber v = .ok x ∧ s.sizeNumber w = .ok y ∧ s.sizeNumber r = .ok (x + y)
  left : ∀ m i x, s.sizeOf v = .ok m → i < m → Number.value? x = some (i : ℚ) →
    ∃ part, s.indexGet r (.number x) = .ok part ∧ s.indexGet v (.number x) = .ok part
  right : ∀ m n i x y, s.sizeOf v = .ok m → s.sizeOf w = .ok n → m ≤ i → i < m + n →
    Number.value? x = some (i : ℚ) → Number.value? y = some ((i - m : ℕ) : ℚ) →
    ∃ part, s.indexGet r (.number x) = .ok part ∧ s.indexGet w (.number y) = .ok part

/-- The list at `c` was made of those at `a` and `b`, and is a list of its own. -/
structure Concatenated (s s' : Store) (a b c : Nat) : Prop where
  new : ∀ v, s.Holds v → v.address? ≠ some c
  contents : s'.cells[c]? = some (.list (s.items a ++ s.items b))
  others : ∀ d, d ≠ c → s'.cells[d]? = s.cells[d]?
  joins : s'.Joins (.list c) (.list a) (.list b)
  /-- Writes through the one list do not show in the others, whenever they are made. -/
  apart : ∀ (r r' : Store) (index value : Value),
    (r.indexSet (.list a) index value = .ok r' → r'.items c = r.items c) ∧
    (r.indexSet (.list b) index value = .ok r' → r'.items c = r.items c) ∧
    (r.indexSet (.list c) index value = .ok r' → r'.items a = r.items a ∧ r'.items b = r.items b)
  /-- At all later moments of a run a list is as it was, unless it was written through. -/
  later : ∀ t steps w state, (Eval.history t steps w state).Pairwise fun m m' =>
    m.state.store = s' → ∃ targets, s'.Evolves targets m'.state.store ∧
      ∀ d ∈ [a, b, c], .list d ∉ targets → m'.state.store.items d = s'.items d

/-- What becomes of the empty text when the characters of a text are read at the indices from zero
on and added one by one. -/
def gather (s : Store) (text : String) : Attempt Value :=
  (List.range text.length).foldlM (fun joined i => do
    let c ← s.indexGet (.string text) (.number (Number.ofNat i))
    let product ← s.binary .add joined c
    .ok (s.realize product).1) (.string "")

/-! ## Sizes and parts -/

/-- `size` counts these parts of the value, and the index leads to each of them. -/
structure HasParts (s : Store) (v : Value) (parts : List Value) : Prop where
  size : s.sizeOf v = .ok parts.length
  read : ∀ {i : ℕ} {x : Float} {part : Value}, Number.value? x = some (i : ℚ) →
    parts[i]? = some part → s.indexGet v (.number x) = .ok part

theorem hasParts_list (s : Store) (a : Nat) : s.HasParts (.list a) (s.items a).toList where
  size := rfl
  read := by
    intro i x part whole found
    obtain ⟨inside, rfl⟩ := List.getElem?_eq_some_iff.1 found
    exact indexGet_list_eq_ok_iff.2 ⟨x, i, inside, rfl, whole, rfl⟩

theorem hasParts_string (s : Store) (text : String) :
    s.HasParts (.string text) (text.toList.map fun c => .string (String.singleton c)) where
  size := by
    rw [List.length_map, String.length_toList]
    rfl
  read := by
    intro i x part whole found
    rw [List.getElem?_map, Option.map_eq_some_iff] at found
    obtain ⟨c, found, rfl⟩ := found
    obtain ⟨inside, rfl⟩ := List.getElem?_eq_some_iff.1 found
    exact indexGet_string_eq_ok_iff.2 ⟨x, i, inside, rfl, whole, rfl⟩

theorem HasParts.sizeNumber {parts : List Value} (has : s.HasParts v parts) :
    s.sizeNumber v = .ok (Number.ofNat parts.length) := by
  rw [Store.sizeNumber, has.size]
  rfl

/-- A value with the parts of two others, one after the other, is these joined. -/
theorem HasParts.joins {parts others : List Value} (both : s.HasParts r (parts ++ others))
    (first : s.HasParts v parts) (second : s.HasParts w others)
    (small : parts.length + others.length < 2 ^ 53) : s.Joins r v w where
  size := by
    refine ⟨_, _, first.sizeNumber, second.sizeNumber, ?_⟩
    rw [both.sizeNumber, List.length_append, Number.ofNat_add_ofNat small]
  left := by
    intro m i x sized inside whole
    cases first.size.symm.trans sized
    have found : parts[i]? = some parts[i] := List.getElem?_eq_getElem inside
    refine ⟨parts[i], both.read whole ?_, first.read whole found⟩
    rw [List.getElem?_append_left inside, found]
  right := by
    intro m n i x y sized sized' beyond inside whole whole'
    cases first.size.symm.trans sized
    cases second.size.symm.trans sized'
    have rest : i - parts.length < others.length := by omega
    have found : others[i - parts.length]? = some others[i - parts.length] :=
      List.getElem?_eq_getElem rest
    refine ⟨others[i - parts.length], both.read whole ?_, second.read whole' found⟩
    rw [List.getElem?_append_right beyond, found]

theorem joins_lists {c : Nat} (contents : s.items c = s.items a ++ s.items b)
    (small : (s.items a).size + (s.items b).size < 2 ^ 53) :
    s.Joins (.list c) (.list a) (.list b) := by
  have both : s.HasParts (.list c) (s.items c).toList := s.hasParts_list c
  rw [contents, Array.toList_append] at both
  exact both.joins (s.hasParts_list a) (s.hasParts_list b) small

theorem joins_strings {x y : String} (small : x.length + y.length < 2 ^ 53) :
    s.Joins (.string (x ++ y)) (.string x) (.string y) := by
  have both := s.hasParts_string (x ++ y)
  rw [String.toList_append, List.map_append] at both
  refine both.joins (s.hasParts_string x) (s.hasParts_string y) ?_
  rwa [List.length_map, List.length_map, String.length_toList, String.length_toList]

theorem exists_indexGet_string_iff {text : String} :
    (∃ v, s.indexGet (.string text) index = .ok v) ↔
      ∃ x, ∃ i : ℤ, index = .number x ∧ Number.value? x = some (i : ℚ) ∧ 0 ≤ i ∧
        i < text.length := by
  constructor
  · rintro ⟨v, read⟩
    obtain ⟨x, i, inside, rfl, whole, -⟩ := indexGet_string_eq_ok_iff.1 read
    rw [String.length_toList] at inside
    exact ⟨x, i, rfl, whole, Int.natCast_nonneg i, Int.ofNat_lt.2 inside⟩
  · rintro ⟨x, i, rfl, whole, positive, inside⟩
    lift i to ℕ using positive
    have inside : i < text.toList.length := by
      rw [String.length_toList]
      exact Int.ofNat_lt.1 inside
    exact ⟨_, indexGet_string_eq_ok_iff.2 ⟨x, i, inside, rfl, whole, rfl⟩⟩

/-! ## Characters one by one -/

theorem adds_strings (s : Store) (x y : String) :
    s.Adds (.string x) (.string y) (.string (x ++ y)) s :=
  ⟨.value (.string (x ++ y)), rfl, rfl⟩

/-- A text is what its characters give, read and added one after the other. -/
theorem gather_eq (s : Store) {text : String} (small : text.length < 2 ^ 53) :
    s.gather text = .ok (.string text) := by
  have upTo (n : Nat) (inside : n ≤ text.length) :
      (List.range n).foldlM (fun joined i => do
        let c ← s.indexGet (.string text) (.number (Number.ofNat i))
        let product ← s.binary .add joined c
        .ok (s.realize product).1) (.string "") =
          (.ok (.string (String.ofList (text.toList.take n))) : Attempt Value) := by
    induction n with
    | zero => rfl
    | succ n ih =>
        have index : Number.value? (Number.ofNat n) = some (n : ℚ) :=
          Number.value?_ofNat (Nat.lt_trans inside small)
        rw [← String.length_toList] at inside
        have read : s.indexGet (.string text) (.number (Number.ofNat n)) =
            .ok (.string (String.singleton text.toList[n])) :=
          indexGet_string_eq_ok_iff.2 ⟨_, n, inside, rfl, index, rfl⟩
        rw [List.range_succ, List.foldlM_append, ih (by rw [← String.length_toList]; omega),
          List.take_succ_eq_append_getElem inside, String.ofList_append]
        change (List.foldlM _ _ _ : Attempt Value) = _
        rw [List.foldlM_cons, read]
        rfl
  rw [gather, upTo _ le_rfl, ← String.length_toList, List.take_length, String.ofList_toList]

/-! ## Lists -/

theorem adds_lists (s : Store) (a b : Nat) :
    s.Adds (.list a) (.list b) (.list s.size)
      ⟨s.cells.push (.list (s.items a ++ s.items b))⟩ :=
  ⟨.items (s.items a ++ s.items b), rfl, rfl⟩

theorem Holds.address_lt (held : s.Holds v) {a : Nat} (address : v.address? = some a) :
    a < s.size := by
  cases v <;> cases address
  · obtain ⟨items, found⟩ := held
    exact (Array.getElem?_eq_some_iff.1 found).1
  · obtain ⟨entries, found⟩ := held
    exact (Array.getElem?_eq_some_iff.1 found).1

theorem concatenated (first : s.Holds (.list a)) (second : s.Holds (.list b))
    (small : (s.items a).size + (s.items b).size < 2 ^ 53) :
    s.Concatenated ⟨s.cells.push (.list (s.items a ++ s.items b))⟩ a b s.size := by
  have left : a < s.size := first.address_lt rfl
  have right : b < s.size := second.address_lt rfl
  have contents : (s.cells.push (.list (s.items a ++ s.items b)))[s.size]? =
      some (.list (s.items a ++ s.items b)) := Array.getElem?_push_size
  constructor
  case new =>
    intro v held address
    exact Nat.lt_irrefl _ (held.address_lt address)
  case contents => exact contents
  case others =>
    intro d other
    exact (Array.getElem?_push ..).trans (if_neg other)
  case joins =>
    refine joins_lists ?_ ?_
    · rw [items_push left, items_push right, Store.items, contents]
    · rw [items_push left, items_push right]
      exact small
  case apart =>
    intro r r' index value
    have other {d e : Nat} (below : d < e) : Value.list d ≠ .list e ∧ Value.list e ≠ .list d :=
      ⟨by simpa using below.ne, by simpa using below.ne'⟩
    refine ⟨fun written => ?_, fun written => ?_, fun written => ⟨?_, ?_⟩⟩
    · exact (items_indexSet written (other left).1).1
    · exact (items_indexSet written (other right).1).1
    · exact (items_indexSet written (other left).2).1
    · exact (items_indexSet written (other right).2).1
  case later =>
    intro t steps w state
    refine (Eval.history_evolves t steps w state).imp fun {m m'} evolved same => ?_
    obtain ⟨targets, evolves⟩ := evolved
    rw [same] at evolves
    refine ⟨targets, evolves, fun d member unwritten => (evolves.items ?_ unwritten).1⟩
    have grown : Store.size ⟨s.cells.push (.list (s.items a ++ s.items b))⟩ = s.size + 1 :=
      Array.size_push ..
    rw [grown]
    simp only [List.mem_cons, List.not_mem_nil, or_false] at member
    rcases member with rfl | rfl | rfl
    · exact Nat.lt_succ_of_lt left
    · exact Nat.lt_succ_of_lt right
    · exact Nat.lt_succ_self _

end Store

namespace Eval

variable {t : FunctionTable} {p : Position} {e e' : Expr} {steps : Nat} {s s₁ s₂ : State}
  {v w r : Value} {x : Float} {store : Store}

theorem expr_add (first : expr t e steps s = .done v s₁)
    (second : expr t e' steps s₁ = .done w s₂) (added : s₂.store.Adds v w r store) :
    expr t (.binary p .add e e') (steps + 1) s = .done r { s₂ with store } := by
  obtain ⟨product, computed, realized⟩ := added
  have last : Run.attempt p (·.binary .add v w) s₂ = .done product s₂ := by
    simp only [Run.attempt, computed]
  simp only [expr]
  rw [Run.bind_done first, Run.bind_done second, Run.bind_done last]
  simp only [Run.make, realized]

theorem expr_index (first : expr t e steps s = .done v s₁)
    (second : expr t e' steps s₁ = .done w s₂) (read : s₂.store.indexGet v w = .ok r) :
    expr t (.index p e e') (steps + 1) s = .done r s₂ := by
  simp only [expr]
  rw [Run.bind_done first, Run.bind_done second]
  simp only [Run.attempt, read]

theorem intrinsic_size (sized : s.store.sizeNumber v = .ok x) :
    intrinsic t p .size [v] (steps + 1) s = .done (.number x) s := by
  obtain ⟨n, found, given⟩ := Attempt.bind_eq_ok.1 sized
  cases given
  have last : Run.attempt p (·.sizeOf v) s = .done n s := by
    simp only [Run.attempt, found]
  simp only [intrinsic]
  rw [Run.bind_done last]
  rfl

end Eval

namespace Store

/-- **Joining, size and index fit together.**  Two lists, of which one may be the other, are joined
to a new list with the items of both, and nothing else in the store changes; what is written
through one of the three later does not show in the others.  Two texts are joined to a text.  Either
way the sizes add up, and each index leads to the same part as before.  A text is read at the
integers from zero to below its size and nowhere else, and its characters added up from the
empty text give it back. -/
theorem joining_fits_size_and_index (s : Store) :
    (∀ a b, s.Holds (.list a) → s.Holds (.list b) →
      (s.items a).size + (s.items b).size < 2 ^ 53 →
      ∃ c s', s.Adds (.list a) (.list b) (.list c) s' ∧ s.Concatenated s' a b c) ∧
    (∀ x y : String, x.length + y.length < 2 ^ 53 →
      s.Adds (.string x) (.string y) (.string (x ++ y)) s ∧
        s.Joins (.string (x ++ y)) (.string x) (.string y)) ∧
    (∀ text : String,
      (∀ index, (∃ v, s.indexGet (.string text) index = .ok v) ↔
        ∃ x, ∃ i : ℤ, index = .number x ∧ Number.value? x = some (i : ℚ) ∧ 0 ≤ i ∧
          i < text.length) ∧
      (text.length < 2 ^ 53 → s.gather text = .ok (.string text))) ∧
    ∀ t p steps,
      (∀ e e' s₀ s₁ s₂ v w r, Eval.expr t e steps s₀ = .done v s₁ →
        Eval.expr t e' steps s₁ = .done w s₂ →
        (∀ store, s₂.store.Adds v w r store →
          Eval.expr t (.binary p .add e e') (steps + 1) s₀ = .done r { s₂ with store }) ∧
        (s₂.store.indexGet v w = .ok r →
          Eval.expr t (.index p e e') (steps + 1) s₀ = .done r s₂)) ∧
      ∀ state v x, state.store.sizeNumber v = .ok x →
        Eval.intrinsic t p .size [v] (steps + 1) state = .done (.number x) state := by
  refine ⟨fun a b first second small => ?_, fun x y small => ?_, fun text => ?_,
    fun t p steps => ⟨fun e e' s₀ s₁ s₂ v w r first second => ⟨fun store => ?_, ?_⟩, ?_⟩⟩
  · exact ⟨_, _, s.adds_lists a b, concatenated first second small⟩
  · exact ⟨s.adds_strings x y, joins_strings small⟩
  · exact ⟨fun index => exists_indexGet_string_iff, s.gather_eq⟩
  · exact Eval.expr_add first second
  · exact Eval.expr_index first second
  · exact fun state v x => Eval.intrinsic_size

/-- A list that holds itself, joined to itself, and a text with a character of two bytes. -/
theorem joining_a_list_to_itself :
    (∃ c s', Adds ⟨#[.list #[.number 1, .list 0]]⟩ (.list 0) (.list 0) (.list c) s' ∧
        Concatenated ⟨#[.list #[.number 1, .list 0]]⟩ s' 0 0 c) ∧
      empty.Joins (.string "aé") (.string "a") (.string "é") ∧
      empty.gather "aé" = .ok (.string "aé") := by
  obtain ⟨lists, -⟩ := joining_fits_size_and_index ⟨#[.list #[.number 1, .list 0]]⟩
  obtain ⟨-, texts, letters, -⟩ := joining_fits_size_and_index empty
  refine ⟨lists 0 0 ⟨_, rfl⟩ ⟨_, rfl⟩ (by decide), (texts "a" "é" (by decide)).2, ?_⟩
  exact (letters "aé").2 (by decide)

end Store

end Script
