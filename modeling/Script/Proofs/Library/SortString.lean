/-
# Script.Proofs.Library.SortString -- sorting the characters of a text

`sortString` repeats what three other functions do: it makes a list of the characters, sorts that,
and joins it to a text.  Either way comes to the text with the same characters in ascending order of
their codes (`sortString_agrees`), which `ascending` gives.

The list that is sorted was made by the call, so to the caller it is something added to the store
(`Store.Extends.withItems`).
-/
import Script.Proofs.Library.Conversions
import Script.Proofs.Library.Sort

namespace Script

set_option autoImplicit false

open Number (ofNat)

/-- What is written to a list that was added is no change of what was there before. -/
theorem Store.Extends.withItems {s s' : Store} {a : Nat} (extended : s.Extends s')
    (new : s.size ≤ a) (items : List Value) : s.Extends (s'.withItems a items) := by
  have below : s.cells.toList.length ≤ a := new
  have written : (s'.withItems a items).cells.toList =
      s'.cells.toList.set a (.list items.toArray) := Array.toList_setIfInBounds ..
  rw [Store.Extends, written, List.prefix_iff_eq_take, List.take_set_of_le below]
  exact List.prefix_iff_eq_take.1 extended

/-! ## Characters in the order of their codes -/

/-- The characters in ascending order of their codes. -/
def ascending (cs : List Char) : List Char :=
  Bubble.sort (fun c d => decide (c.toNat < d.toNat)) cs

theorem ascending_perm (cs : List Char) : (ascending cs).Perm cs :=
  Bubble.sort_perm cs

theorem ascending_pairwise (cs : List Char) :
    (ascending cs).Pairwise fun c d => c.toNat ≤ d.toNat := by
  have orders : OrdersAll (fun c d : Char => decide (c.toNat < d.toNat)) cs := by
    constructor <;> simp only [decide_eq_true_eq, decide_eq_false_iff_not, not_lt]
    · exact fun c _ d _ less => less.le
    · exact fun b _ c _ d _ first second => second.trans first
  exact (Bubble.sort_ascending orders).imp fun not => not_lt.1 (of_decide_eq_false not)

theorem Value.less_singletons (c d : Char) :
    (Value.string (String.singleton c)).less (.string (String.singleton d)) =
      decide (c.toNat < d.toNat) := by
  simp only [Value.less, Store.binary_strings .less, BinaryOp.holds,
    Text.singleton_lt_singleton_iff]

/-- Sorting the texts of characters is sorting the characters. -/
theorem sort_letters (cs : List Char) :
    Bubble.sort Value.less (Eval.letters cs) = Eval.letters (ascending cs) := by
  rw [Eval.letters, Bubble.sort_map]
  simp only [Value.less_singletons]
  rfl

theorem orderly_letters (cs : List Char) : Orderly (Eval.letters cs) := by
  refine .inr fun v inside => ?_
  obtain ⟨c, -, rfl⟩ := Eval.mem_letters.1 inside
  exact ⟨_, rfl⟩

@[simp] theorem length_ascending (cs : List Char) : (ascending cs).length = cs.length :=
  (ascending_perm cs).length_eq

namespace Library

open Eval

variable {t : FunctionTable} {p : Position} {c s : State} {a steps : Nat} {cs : List Char}
  {text : String}

/-- What the body does once the list of the characters is there. -/
theorem statements_sortChars {v : Value} (unshadowed : c.scopes.target "size" = "size")
    (held : c.store.cells[a]? = some (.list (letters cs).toArray)) (small : cs.length < 2 ^ 53)
    (enough : 2 * cs.length + 60 ≤ steps) :
    ∃ bindings, statements t (sortString.body.drop 2) steps
        (c.holding [("text", v), ("chars", .list a)]) =
      .done (.returned (.string (String.ofList (ascending cs))))
        ((c.withItems a (letters (ascending cs))).holding bindings) := by
  obtain ⟨more, rfl⟩ := Nat.exists_eq_add_of_le' enough
  let sorted := letters (ascending cs)
  let bindings : List (String × Value) :=
    [("text", v), ("chars", .list a), ("n", .number (ofNat (letters cs).length))]
  have small' : (letters cs).length < 2 ^ 53 := by rwa [length_letters]
  have same : sorted.length = (letters cs).length := by simp [sorted]
  have visible : (c.holding [("text", v), ("chars", .list a)]).scopes.target "size" = "size" :=
    unshadowed
  have declared : statement t (.declare ⟨27, 9⟩ "n" (sizeOf 27 13 "chars"))
      (more + 2 * cs.length + 59) (c.holding [("text", v), ("chars", .list a)]) =
        .done .next (c.holding bindings) :=
    statement_declare (expr_size visible (expr_name rfl) (Store.Spells.list held).hasParts.size) rfl
  have before : Before (c.holding bindings) "chars" a (letters cs) :=
    ⟨⟨rfl, held, small'⟩, by decide, rfl⟩
  have ordered : statement t (sortLoop "chars" 28) (more + 2 * cs.length + 58)
      (c.holding bindings) =
      .done .next ((c.withItems a sorted).holding bindings) :=
    (before.sortLoop (orderly_letters cs).compared (by rw [length_letters]; omega)).trans
      (by rw [sort_letters]; rfl)
  have listed : (c.withItems a sorted).store.Spells false (.list a) sorted :=
    .list (Store.cells_withItems held)
  have bounds : Bounds t ["i", "result"] ((c.withItems a sorted).holding bindings)
      (.name ⟨38, 25⟩ "n") sorted.length :=
    .name (by decide) (by rw [same]; rfl)
  obtain ⟨_, ⟨u, store, grows, made, rfl⟩, ended⟩ :=
    statements_gather 38 1 [returnResult 41]
      (show "result" ≠ "i" ∧ "chars" ≠ "i" ∧ "chars" ≠ "result" by decide) rfl rfl listed
      (by rwa [same]) (fits_letters true _) bounds
  obtain rfl := grows.kept rfl
  obtain rfl := made.spells.eq_string
  have joined := (ended ⟨37, 9⟩ 37 18 (more + 2 * cs.length + 56) (by
    rw [same, length_letters]; omega)).trans
      (statements_returned (statement_return (expr_name rfl)))
  exact ⟨_, (statements_next declared).trans ((statements_next ordered).trans joined)⟩

theorem apply_sortString {name : String} (bundled : Bundled t "sortString" name)
    (unshadowed : s.scopes.target "size" = "size") (small : text.length < 2 ^ 53) :
    ∃ store, s.store.Extends store ∧ ∀ steps, 2 * text.length + 70 ≤ steps →
      apply t p name [.string text] steps s =
        .done (.string (String.ofList (ascending text.toList))) { s with store } := by
  have called : t.find? name = some sortString := bundled.find? (by simp [functions])
  have length : (letters text.toList).length = text.length := by
    rw [length_letters, String.length_toList]
  let c : State := { s with calls := s.calls.push ⟨name, p⟩ }
  have visible : (c.holding [("text", .string text)]).scopes.target "size" = "size" := unshadowed
  have bounds : Bounds t ["i", "chars"] (c.holding [("text", .string text)]) (sizeOf 24 25 "text")
      (letters text.toList).length :=
    .sizeOf (by decide) visible rfl (.text text)
  obtain ⟨_, ⟨u, store, grows, made, rfl⟩, ended⟩ :=
    statements_gather 24 10 (sortString.body.drop 2)
      (show "chars" ≠ "i" ∧ "text" ≠ "i" ∧ "text" ≠ "chars" by decide) rfl rfl (.text text)
      (by rwa [length]) (fits_letters false _) bounds
  obtain ⟨-, -⟩ | @⟨a, _, held⟩ := made.spells
  refine ⟨_, grows.extended.withItems (made.new a rfl) (letters (ascending text.toList)),
    fun steps enough => ?_⟩
  obtain ⟨more, rfl⟩ := Nat.exists_eq_add_of_le' enough
  have small' : text.toList.length < 2 ^ 53 := by rwa [String.length_toList]
  have fewer : 2 * text.toList.length + 60 ≤ more + 2 * text.length + 66 := by
    rw [String.length_toList]
    omega
  obtain ⟨bindings, sorted⟩ := statements_sortChars (t := t) (v := .string text)
    (c := { c with store }) unshadowed held small' fewer
  have body : statements t sortString.body (more + 2 * text.length + 68)
      (c.holding [("text", .string text)]) = _ :=
    (ended ⟨23, 9⟩ 23 17 (more + 2 * text.length + 66) (by rw [length]; omega)).trans sorted
  exact apply_user bundled.plain called rfl rfl body

/-- The characters of a text are made into a list, which is sorted and joined. -/
theorem expr_joinSortedChars {split order join : String} {p₁ p₂ p₃ : Position} {e : Expr}
    (splits : Bundled t "stringToList" split) (orders : Bundled t "sort" order)
    (joins : Bundled t "listToString" join)
    (unshadowed : ∀ word ∈ ["size", split, order, join], s.scopes.target word = word)
    (small : text.length < 2 ^ 53)
    (given : ∀ steps, expr t e (steps + 1) s = .done (.string text) s) :
    ∃ store, s.store.Extends store ∧ ∀ steps, 2 * text.length + 60 ≤ steps →
      expr t (.call p₁ join [.call p₂ order [.call p₃ split [e]]]) steps s =
        .done (.string (String.ofList (ascending text.toList))) { s with store } := by
  have splitting : t.find? split = some stringToList := splits.find? (by simp [functions])
  have ordering : t.find? order = some sort := orders.find? (by simp [functions])
  have joining : t.find? join = some listToString := joins.find? (by simp [functions])
  have size : s.scopes.target "size" = "size" := unshadowed _ (by simp)
  have length : (letters text.toList).length = text.length := by
    rw [length_letters, String.length_toList]
  obtain ⟨a, store, extended, made, listed⟩ := apply_stringToList splits size small
  obtain ⟨-⟩ | ⟨held⟩ := made.spells
  let sorted := letters (ascending text.toList)
  have written : (store.withItems a sorted).cells[a]? = some (.list sorted.toArray) :=
    Store.cells_withItems held
  refine ⟨_, extended.withItems (made.new a rfl) sorted, fun steps enough => ?_⟩
  obtain ⟨more, rfl⟩ := Nat.exists_eq_add_of_le' enough
  have first : expr t (.call p₃ split [e]) (more + 2 * text.length + 54) s =
      .done (.list a) { s with store } :=
    (expr_function splits.plain splitting rfl
      (unshadowed _ (by simp)) (given _)).trans (listed _ (by omega))
  have ordered : apply t p₂ order [.list a] (more + 2 * text.length + 56) { s with store } =
      .done (.list a) ({ s with store }.withItems a
        (Bubble.sort Value.less (letters text.toList))) :=
    apply_sort ordering orders.plain size held (by rwa [length]) (orderly_letters _)
      (by rw [length]; omega)
  rw [sort_letters] at ordered
  have second := (expr_function (p := p₂) orders.plain ordering rfl
    (unshadowed order (by simp)) first).trans ordered
  refine (expr_function joins.plain joining rfl (unshadowed join (by simp)) second).trans ?_
  have short : (ascending text.toList).length = text.length := by
    rw [length_ascending, String.length_toList]
  exact apply_listToString (s := { s with store := store.withItems a sorted }) joins size written
    (short ▸ small) (by rw [short]; omega)

/-- **Sorting a text is sorting the list of its characters.**  `sortString`, called by any name it
was imported under, ends with the characters of the text in ascending order of their codes, each as
often as the text has it; and so does making a list of them, sorting that and joining it. -/
theorem sortString_agrees {whole split order join : String} {p₁ p₂ p₃ : Position} {e : Expr}
    (sorts : Bundled t "sortString" whole) (splits : Bundled t "stringToList" split)
    (orders : Bundled t "sort" order) (joins : Bundled t "listToString" join)
    (unshadowed : ∀ word ∈ ["size", split, order, join], s.scopes.target word = word)
    (small : text.length < 2 ^ 53)
    (given : ∀ steps, expr t e (steps + 1) s = .done (.string text) s) (p : Position) :
    ∃ sorted store store', sorted.toList.Perm text.toList ∧
      sorted.toList.Pairwise (fun c d => c.toNat ≤ d.toNat) ∧
      s.store.Extends store ∧ s.store.Extends store' ∧
      callFunction t whole [.string text] p s = .done (.string sorted) { s with store } ∧
      expr t (.call p₁ join [.call p₂ order [.call p₃ split [e]]]) limit s =
        .done (.string sorted) { s with store := store' } := by
  have enough : 2 * text.length + 70 ≤ limit := by
    rw [limit]
    omega
  obtain ⟨store, extended, ended⟩ :=
    apply_sortString sorts (unshadowed _ List.mem_cons_self) small
  obtain ⟨store', extended', ended'⟩ :=
    expr_joinSortedChars splits orders joins unshadowed small given
  refine ⟨String.ofList (ascending text.toList), store, store', ?_, ?_, extended, extended',
    ended limit enough, ended' limit (by omega)⟩
  · rw [String.toList_ofList]
    exact ascending_perm _
  · rw [String.toList_ofList]
    exact ascending_pairwise _

/-- Both ways a letter that comes twice stays twice. -/
theorem sortString_of_three_letters :
    let s : State := .start (.lines [])
    (∀ word ∈ ["size", "stringToList", "sort", "listToString"], s.scopes.target word = word) ∧
      ∃ store store', s.store.Extends store ∧ s.store.Extends store' ∧
        callFunction table "sortString" [.string "bab"] .start s =
          .done (.string "abb") { s with store } ∧
        expr table (.call .start "listToString" [.call .start "sort" [.call .start "stringToList"
            [.string .start "bab"]]]) limit s =
          .done (.string "abb") { s with store := store' } := by
  intro s
  have visible : ∀ word ∈ ["size", "stringToList", "sort", "listToString"],
      s.scopes.target word = word := fun _ _ => rfl
  obtain ⟨sorted, store, store', perm, pairs, extended, extended', ended, ended'⟩ :=
    sortString_agrees (bundled_table sortString (by simp [functions]))
      (bundled_table stringToList (by simp [functions])) (bundled_table sort (by simp [functions]))
      (bundled_table listToString (by simp [functions])) visible (by decide)
      (fun _ => expr_string "bab") .start
  have letters : sorted.toList = "abb".toList := by
    refine (perm.trans (by decide)).eq_of_pairwise (fun c d _ _ up down => ?_) pairs (by decide)
    exact Char.toNat_inj.1 (up.antisymm down)
  rw [String.toList_inj.1 letters] at ended ended'
  exact ⟨visible, store, store', extended, extended', ended, ended'⟩

end Library

end Script
