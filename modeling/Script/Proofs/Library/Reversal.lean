/-
# Script.Proofs.Library.Reversal -- texts and lists from the last part to the first

`reverseList` counts down.  Its counter begins one below the size and ends at `-1`, and that is
where it begins if there are no parts (`statement_countedDown`).  The copy that it makes has the
parts in reverse order (`apply_reverseList`), and with the conversions between texts and lists of
characters it does what reversing lists does: `conversions_fit_reversal` says so of the functions as
they are called, one after the other.
-/
import Script.Proofs.Library.Conversions

namespace Script

set_option autoImplicit false

open Number (ofNat before)

/-! ## Loops that count down -/

/-- The state inside a loop that counts down and has `m` rounds before it. -/
def State.countingDown (s : State) (word : String) (m : Nat) : State :=
  s.holding [(word, .number (before m))]

theorem State.countingDown_succ (s : State) {word : String} {m : Nat} (below : m + 1 < 2 ^ 53) :
    s.countingDown word (m + 1) = s.counting word m := by
  rw [countingDown, Number.before_succ below, counting]

namespace Eval

variable {t : FunctionTable} {s : State} {word : String} {e : Expr} {body : List Stmt}
  {p p₁ p₂ p₃ p₄ p₅ p₆ p₇ p₈ : Position} {c m count steps : Nat}

/-- There is a round left unless the counter stands at `-1`. -/
theorem expr_roundLeft (small : m < 2 ^ 53) :
    expr t (.binary p .greaterEqual (.name p₁ word) (.number p₂ (ofNat 0))) (steps + 2)
        (s.countingDown word m) =
      .done (.bool (0 < m)) (s.countingDown word m) := by
  have bound : (s.countingDown word m).scopes.lookup word = some (.number (before m)) := by
    simp [State.countingDown, Scopes.lookup_holding]
  refine expr_binary (expr_name bound) (expr_number _) ?_
  rw [Store.binary_of_coerce .greaterEqual rfl rfl, BinaryOp.holds,
    decide_eq_decide.2 (Number.ofNat_le_before (by decide) small)]

/-- The counter goes down by one. -/
theorem expr_countDown :
    expr t (.assign p word (.binary p₁ .subtract (.name p₂ word) (.number p₃ (ofNat 1))))
        (steps + 3) (s.counting word m) =
      .done (.number (before m)) (s.countingDown word m) := by
  have bound : [(word, Value.number (ofNat m))].lookup word = some (.number (ofNat m)) := by simp
  refine (expr_assign (expr_binary (expr_name s.lookup_counting) (expr_number (ofNat 1))
    rfl)).trans ?_
  rw [State.counting, State.assign_holding bound]
  simp [State.countingDown, Scope.bind, before]

/-- What the body passes on, without the counter, holds after a loop that counts down from one
below the number of its rounds. -/
theorem statement_countedDown (Inv : Nat → State → Prop) (begun : Inv 0 s)
    (small : count < 2 ^ 53)
    (given : ∀ steps, c ≤ steps →
      expr t e steps (s.holding []) = .done (.number (before count)) (s.holding []))
    (passes : ∀ k < count, ∀ r, Inv k r → ∃ r', Inv (k + 1) r' ∧ ∀ steps, c ≤ steps →
      Run.inScope (statements t body steps) (r.counting word (count - 1 - k)) =
        .done .next (r'.counting word (count - 1 - k))) :
    ∃ s', Inv count s' ∧ ∀ steps, count + c + 5 ≤ steps →
      statement t (.loop p (.declare p₁ word e)
          (some (.binary p₂ .greaterEqual (.name p₃ word) (.number p₄ (ofNat 0))))
          (some (.assign p₅ word (.binary p₆ .subtract (.name p₇ word) (.number p₈ (ofNat 1)))))
          body) steps s =
        .done .next s' := by
  let condition : Expr := .binary p₂ .greaterEqual (.name p₃ word) (.number p₄ (ofNat 0))
  let step : Expr := .assign p₅ word (.binary p₆ .subtract (.name p₇ word) (.number p₈ (ofNat 1)))
  have turns : ∀ k < count, ∀ r, (∃ r₀, r = r₀.countingDown word (count - k) ∧ Inv k r₀) →
      ∃ r', (∃ r₀, r' = r₀.countingDown word (count - (k + 1)) ∧ Inv (k + 1) r₀) ∧
        Leads t (some condition) (some step) body (c + 4) 1 r r' := by
    rintro k less _ ⟨r, rfl, held⟩
    obtain ⟨r', held', passed⟩ := passes k less r held
    refine ⟨_, ⟨r', rfl, held'⟩, fun steps enough => ?_⟩
    obtain ⟨more, rfl⟩ : ∃ more, steps = more + c + 3 + 1 := ⟨steps - c - 4, by omega⟩
    -- The counter stands at the number of rounds left, less one.
    have left : count - k = count - 1 - k + 1 := by omega
    have next : count - (k + 1) = count - 1 - k := by omega
    have asked : expr t condition (more + c + 2 + 2) (r.countingDown word (count - k)) = _ :=
      expr_roundLeft (by omega)
    rw [left, State.countingDown_succ r (by omega)] at asked ⊢
    rw [next]
    have goesOn : decide (0 < count - 1 - k + 1) = true := decide_eq_true (Nat.succ_pos _)
    exact rounds_again asked goesOn (passed _ (by omega)) expr_countDown
  obtain ⟨_, ⟨s', rfl, held⟩, leads⟩ := leads_of_rounds
    (fun k r => ∃ r₀, r = r₀.countingDown word (count - k) ∧ Inv k r₀) ⟨s, rfl, begun⟩ turns
  refine ⟨s', held, fun steps enough => ?_⟩
  obtain ⟨more, rfl⟩ : ∃ more, steps = more + c + 4 + count + 1 :=
    ⟨steps - (count + c + 5), by omega⟩
  have asked : expr t condition (more + c + 1 + 2) (s'.countingDown word (count - count)) = _ :=
    expr_roundLeft (by omega)
  have stops : decide (0 < count - count) = false := decide_eq_false (by omega)
  exact statement_loop_declared (given _ (by omega))
    ((leads _ (by omega)).trans (rounds_over asked stops))

end Eval

/-! ## The function -/

namespace Library

open Eval

variable {t : FunctionTable} {p : Position} {c s r : State} {v u : Value} {parts : List Value}
  {asText : Bool} {n : Nat} {name : String}

/-- One round adds the part that mirrors the last one added. -/
theorem inScope_addMirrored (spells : c.store.Spells asText v parts)
    (small : parts.length < 2 ^ 53) {k : Nat} (less : k < parts.length)
    (gathers : Gathered c [("items", v), ("text", .bool asText), ("result", u)] "result" n asText
      (parts.reverse.take k) r) :
    ∃ r', Gathered c [("items", v), ("text", .bool asText), ("result", u)] "result" n asText
        (parts.reverse.take (k + 1)) r' ∧
      ∀ steps, 12 ≤ steps →
        Run.inScope (statements t [addLike 79 9] steps) (r.counting "i" (parts.length - 1 - k)) =
          .done .next (r'.counting "i" (parts.length - 1 - k)) := by
  have inside : k < parts.reverse.length := by rwa [List.length_reverse]
  have there : parts[parts.length - 1 - k]? = some parts.reverse[k] := by
    rw [List.getElem_reverse, List.getElem?_eq_getElem]
  have fits : Fits asText parts.reverse[k] :=
    fits_of_spells spells _ (List.mem_of_getElem? there)
  let frames : List (List (String × Value)) :=
    [[], [("i", .number (ofNat (parts.length - 1 - k)))]]
  have away : ∀ inner ∈ frames, inner.lookup "result" = none := by simp [frames]
  have outer : Reading (r.counting "i" (parts.length - 1 - k)) "items" "i" v parts
      (parts.length - 1 - k) := gathers.reading spells small (by decide) rfl _
  have reading : Reading (r.inside frames) "items" "i" v parts (parts.length - 1 - k) :=
    outer.inside (by simp : ∀ inner ∈ [[]], ∀ word ∈ ["items", "i"], inner.lookup word = none)
  have kind : (r.inside frames).scopes.lookup "text" = some (.bool asText) :=
    (Scopes.lookup_inside (by simp [frames]) r.scopes).trans
      (gathers.keeps.lookup "text" (by decide))
  obtain ⟨r', gathers', added⟩ :=
    gathers.statement_addLike (t := t) away reading kind there fits
  rw [List.take_append_getElem] at gathers'
  refine ⟨r', gathers', fun steps enough => ?_⟩
  obtain ⟨more, rfl⟩ := Nat.exists_eq_add_of_le' enough
  exact inScope_statement (added 79 9 (more + 2))

/-- The loop adds all parts to the result, the last one first. -/
theorem statement_reverseLoop (unshadowed : c.scopes.target "size" = "size")
    (spells : c.store.Spells asText v parts) (small : parts.length < 2 ^ 53)
    (begun : Gathered c [("items", v), ("text", .bool asText), ("result", u)] "result" n asText []
      r) :
    ∃ r', Gathered c [("items", v), ("text", .bool asText), ("result", u)] "result" n asText
        parts.reverse r' ∧
      ∀ steps, parts.length + 20 ≤ steps → statement t reverseLoop steps r = .done .next r' := by
  let bindings : List (String × Value) := [("items", v), ("text", .bool asText), ("result", u)]
  have bounds : Bounds t ["result"] (c.holding bindings) (sizeOf 78 18 "items") parts.length :=
    .sizeOf (by decide) unshadowed rfl spells
  have given : ∀ steps, 12 ≤ steps →
      expr t (.binary ⟨78, 30⟩ .subtract (sizeOf 78 18 "items") (.number ⟨78, 32⟩ (ofNat 1))) steps
        (r.holding []) = .done (.number (before parts.length)) (r.holding []) := by
    intro steps enough
    obtain ⟨more, rfl⟩ := Nat.exists_eq_add_of_le' enough
    have sized := bounds (r.holding []) (begun.keeps.holding fun _ _ => rfl) (more + 11) (by omega)
    exact expr_binary sized (expr_number _) rfl
  obtain ⟨r', gathers, ended⟩ := statement_countedDown
    (fun k r => Gathered c bindings "result" n asText (parts.reverse.take k) r) begun small given
    fun _ less _ gathers => inScope_addMirrored spells small less gathers
  rw [← List.length_reverse, List.take_length] at gathers
  exact ⟨r', gathers, fun steps enough => ended steps (by omega)⟩

/-- The function makes a new text or list of the parts in reverse order. -/
theorem apply_reverseList (bundled : Bundled t "reverseList" name)
    (sized : s.scopes.target "size" = "size") (typed : s.scopes.target "typeOf" = "typeOf")
    (spells : s.store.Spells asText v parts) (small : parts.length < 2 ^ 53) :
    ∃ u store, s.store.Extends store ∧ store.Made s.store.size asText u parts.reverse ∧
      ∀ steps, parts.length + 40 ≤ steps →
        apply t p name [v] steps s = .done u { s with store } := by
  have called : t.find? name = some reverseList := bundled.find? (by simp)
  obtain ⟨u, store, extended, made, ended⟩ := apply_emptyLike (p := p) bundled.plain called rfl rfl
    typed spells fun s' u r same extended begun =>
      statement_reverseLoop (same ▸ sized) (spells.later extended) small begun
  exact ⟨u, store, extended, made, fun steps enough => ended steps (by omega)⟩

/-! ## The functions together -/

/-- The call ends with a value, and all that it does is to add to the store. -/
structure Gives (t : FunctionTable) (p : Position) (name : String) (v : Value) (s : State)
    (u : Value) (store : Store) : Prop where
  extended : s.store.Extends store
  ended : callFunction t name [v] p s = .done u { s with store }

theorem enough_of_small (small : n < 2 ^ 53) : n + 40 ≤ limit := by
  rw [limit]
  omega

theorem gives_size (spells : s.store.Spells asText v parts) :
    Gives t p "size" v s (.number (ofNat parts.length)) s.store := by
  refine ⟨.refl _, ?_⟩
  have called : t.callee "size" 1 = .ok (.intrinsic .size) := rfl
  have answered : intrinsic t p .size [v] (limit - 2) s = .done (.number (ofNat parts.length)) s :=
    intrinsic_size spells.hasParts.sizeNumber
  have steps : limit = limit - 2 + 2 := rfl
  rw [callFunction, steps]
  simp only [apply, List.length_singleton, called]
  rw [Run.bind_done (show Run.check p (.ok (Callee.intrinsic .size)) s = .done _ s from rfl)]
  simp only [invoke]
  exact answered

theorem gives_stringToList {text : String} (bundled : Bundled t "stringToList" name)
    (sized : s.scopes.target "size" = "size") (small : text.length < 2 ^ 53) :
    ∃ a store, Gives t p name (.string text) s (.list a) store ∧
      store.Spells false (.list a) (letters text.toList) := by
  obtain ⟨a, store, extended, made, ended⟩ := apply_stringToList (p := p) bundled sized small
  have enough := enough_of_small small
  exact ⟨a, store, ⟨extended, ended limit (by omega)⟩, made.spells⟩

theorem gives_listToString {a : Nat} {cs : List Char} (bundled : Bundled t "listToString" name)
    (sized : s.scopes.target "size" = "size")
    (spells : s.store.Spells false (.list a) (letters cs)) (small : cs.length < 2 ^ 53) :
    Gives t p name (.list a) s (.string (String.ofList cs)) s.store := by
  obtain ⟨-⟩ | ⟨held⟩ := spells
  have enough := enough_of_small small
  exact ⟨.refl _, apply_listToString bundled sized held small (by omega)⟩

theorem gives_reverseList (bundled : Bundled t "reverseList" name)
    (unshadowed : ∀ word ∈ ["size", "typeOf"], s.scopes.target word = word)
    (spells : s.store.Spells asText v parts) (small : parts.length < 2 ^ 53) :
    ∃ u store, Gives t p name v s u store ∧ store.Spells asText u parts.reverse := by
  obtain ⟨u, store, extended, made, ended⟩ := apply_reverseList (p := p) bundled
    (unshadowed "size" (by simp)) (unshadowed "typeOf" (by simp)) spells small
  exact ⟨u, store, ⟨extended, ended limit (enough_of_small small)⟩, made.spells⟩

theorem letters_reverse (cs : List Char) : (letters cs).reverse = letters cs.reverse :=
  List.map_reverse.symm

/-- Items that are characters are the characters of some text. -/
theorem exists_letters {items : List Value}
    (single : ∀ x ∈ items, ∃ c, x = .string (String.singleton c)) :
    ∃ cs, items = letters cs := by
  induction items with
  | nil => exact ⟨[], rfl⟩
  | cons x items ih =>
      obtain ⟨⟨c, rfl⟩, others⟩ := List.forall_mem_cons.1 single
      obtain ⟨cs, rfl⟩ := ih others
      exact ⟨c :: cs, rfl⟩

section

variable {split join reverse : String} (splits : Bundled t "stringToList" split)
  (joins : Bundled t "listToString" join) (reverses : Bundled t "reverseList" reverse)
  (unshadowed : ∀ word ∈ ["size", "typeOf"], s.scopes.target word = word) (p : Position)

include splits joins reverses unshadowed in
/-- A text is its list of characters joined, and reversing it is reversing that. -/
theorem text_of_its_list {text : String} (small : text.length < 2 ^ 53) :
    ∃ a b store store' store'', Gives t p split (.string text) s (.list a) store ∧
      Gives t p join (.list a) { s with store } (.string text) store ∧
      Gives t p reverse (.list a) { s with store } (.list b) store' ∧
      Gives t p join (.list b) { s with store := store' }
        (.string (String.ofList text.toList.reverse)) store' ∧
      Gives t p reverse (.string text) s (.string (String.ofList text.toList.reverse)) store'' := by
  have sized := unshadowed "size" (by simp)
  have few : text.toList.length < 2 ^ 53 := by rwa [String.length_toList]
  have short : (letters text.toList).length < 2 ^ 53 := by rwa [length_letters]
  obtain ⟨a, store, listed, spells⟩ := gives_stringToList (p := p) splits sized small
  have joined := gives_listToString (p := p) (s := { s with store }) joins sized spells few
  rw [String.ofList_toList] at joined
  obtain ⟨u, store', turned, spells'⟩ :=
    gives_reverseList (p := p) (s := { s with store }) reverses unshadowed spells short
  obtain ⟨u', store'', direct, spells''⟩ :=
    gives_reverseList (p := p) reverses unshadowed (.text text) short
  rw [letters_reverse] at spells' spells''
  obtain rfl := spells''.eq_string
  have address : ∃ b, u = .list b := by
    obtain ⟨-⟩ | ⟨-⟩ := spells'
    exact ⟨_, rfl⟩
  obtain ⟨b, rfl⟩ := address
  have again := gives_listToString (p := p) (s := { s with store := store' }) joins sized spells'
    (by rwa [List.length_reverse])
  exact ⟨a, b, store, store', store'', listed, joined, turned, again, direct⟩

include splits joins unshadowed in
/-- A list of characters is the list of the characters of the text that it is joined to. -/
theorem list_of_its_text {a : Nat} {items : List Value}
    (held : s.store.cells[a]? = some (.list items.toArray)) (small : items.length < 2 ^ 53)
    (single : ∀ x ∈ items, ∃ c, x = .string (String.singleton c)) :
    ∃ text b store, Gives t p join (.list a) s (.string text) s.store ∧
      Gives t p split (.string text) s (.list b) store ∧
      store.cells[b]? = some (.list items.toArray) := by
  have sized := unshadowed "size" (by simp)
  obtain ⟨cs, rfl⟩ := exists_letters single
  rw [length_letters] at small
  have length : (String.ofList cs).length = cs.length := by
    rw [← String.length_toList, String.toList_ofList]
  have joined := gives_listToString (t := t) (p := p) joins sized (.list held) small
  obtain ⟨b, store, listed, spells⟩ :=
    gives_stringToList (p := p) (s := s) splits sized (length ▸ small)
  rw [String.toList_ofList] at spells
  obtain ⟨-⟩ | ⟨held'⟩ := spells
  exact ⟨_, b, store, joined, listed, held'⟩

include reverses unshadowed in
/-- A text or list turned round twice has the parts it had. -/
theorem reversed_twice (spells : s.store.Spells asText v parts) (small : parts.length < 2 ^ 53) :
    ∃ r r' store store', Gives t p reverse v s r store ∧ Gives t p reverse r { s with store } r'
        store' ∧
      store.Spells asText r parts.reverse ∧ store'.Spells asText r' parts := by
  obtain ⟨r, store, turned, spells'⟩ :=
    gives_reverseList (p := p) reverses unshadowed spells small
  obtain ⟨r', store', again, spells''⟩ := gives_reverseList (p := p) (s := { s with store })
    reverses unshadowed spells' (by rwa [List.length_reverse])
  rw [List.reverse_reverse] at spells''
  exact ⟨r, r', store, store', turned, again, spells', spells''⟩

end

/-- The part at an index of a reversed value is the one as far from the other end. -/
theorem indexGet_reversed {store : Store} {u : Value} (spells : store.Spells asText v parts)
    (turned : store.Spells asText u parts.reverse) {i : Nat} {x y : Float}
    (inside : i < parts.length) (left : Number.value? x = some (i : ℚ))
    (right : Number.value? y = some ((parts.length - 1 - i : ℕ) : ℚ)) :
    ∃ part, store.indexGet u (.number x) = .ok part ∧ store.indexGet v (.number y) = .ok part := by
  have there : parts[parts.length - 1 - i]? = some (parts[parts.length - 1 - i]) :=
    List.getElem?_eq_getElem (by omega)
  have other : parts.reverse[i]? = some (parts[parts.length - 1 - i]) := by
    rw [List.getElem?_reverse inside]
    exact there
  exact ⟨_, turned.hasParts.read left other, spells.hasParts.read right there⟩

/-- **Texts and lists of characters are made of each other, and reversing fits to both.**  The
functions are called by any names they were imported under.  A text made into a list and joined is
the text, and reversing it is joining the reversed list; a list of characters joined and taken apart
has the contents it had.  A text or list reversed twice has its parts again; reversed once it has
the same size, and at each index the part that is as far from the other end.  Nothing that was there
is changed, the argument included. -/
theorem conversions_fit_reversal {split join reverse : String}
    (splits : Bundled t "stringToList" split) (joins : Bundled t "listToString" join)
    (reverses : Bundled t "reverseList" reverse)
    (unshadowed : ∀ word ∈ ["size", "typeOf"], s.scopes.target word = word) (p : Position) :
    (∀ text : String, text.length < 2 ^ 53 → ∃ a b reversed store store' store'',
      Gives t p split (.string text) s (.list a) store ∧
      Gives t p join (.list a) { s with store } (.string text) store ∧
      Gives t p reverse (.list a) { s with store } (.list b) store' ∧
      Gives t p join (.list b) { s with store := store' } (.string reversed) store' ∧
      Gives t p reverse (.string text) s (.string reversed) store'' ∧
      reversed.toList = text.toList.reverse) ∧
    (∀ (a : Nat) (items : List Value), s.store.cells[a]? = some (.list items.toArray) →
      items.length < 2 ^ 53 → (∀ x ∈ items, ∃ c, x = .string (String.singleton c)) →
      ∃ text b store, Gives t p join (.list a) s (.string text) s.store ∧
        Gives t p split (.string text) s (.list b) store ∧
        store.cells[b]? = some (.list items.toArray)) ∧
    ∀ (asText : Bool) (v : Value) (parts : List Value), s.store.Spells asText v parts →
      parts.length < 2 ^ 53 → ∃ r r' size store store',
        Gives t p reverse v s r store ∧ Gives t p reverse r { s with store } r' store' ∧
        store'.Spells asText r' parts ∧ store'.Spells asText v parts ∧
        Gives t p "size" v s size s.store ∧ Gives t p "size" r { s with store } size store ∧
        ∀ i x y, i < parts.length → Number.value? x = some (i : ℚ) →
          Number.value? y = some ((parts.length - 1 - i : ℕ) : ℚ) →
          ∃ part, store.indexGet r (.number x) = .ok part ∧
            store.indexGet v (.number y) = .ok part := by
  refine ⟨fun text small => ?_, fun a items held small single => ?_,
    fun asText v parts spells small => ?_⟩
  · obtain ⟨a, b, store, store', store'', listed, joined, turned, again, direct⟩ :=
      text_of_its_list splits joins reverses unshadowed p small
    exact ⟨a, b, _, store, store', store'', listed, joined, turned, again, direct,
      String.toList_ofList⟩
  · exact list_of_its_text splits joins unshadowed p held small single
  · obtain ⟨r, r', store, store', turned, again, spells', spells''⟩ :=
      reversed_twice reverses unshadowed p spells small
    have later : store.Spells asText v parts := spells.later turned.extended
    have sized : Gives t p "size" r { s with store } (.number (ofNat parts.length)) store := by
      rw [← List.length_reverse]
      exact gives_size spells'
    exact ⟨r, r', _, store, store', turned, again, spells'', later.later again.extended,
      gives_size spells, sized, fun i x y inside left right =>
        indexGet_reversed later spells' inside left right⟩

/-- A text with a character of two bytes, a list of two characters, and a list that holds that
list. -/
theorem conversions_of_two_letters :
    let t : FunctionTable := table.add "reverseList" reverseList
    let letters : List Value := [.string "n", .string "é"]
    let items : List Value := [.number 1, .list 0, .null]
    let s : State :=
      { State.start (.lines []) with store := ⟨#[.list letters.toArray, .list items.toArray]⟩ }
    (∀ word ∈ ["size", "typeOf"], s.scopes.target word = word) ∧
    (∃ a store store'', Gives t .start "stringToList" (.string "né") s (.list a) store ∧
      Gives t .start "listToString" (.list a) { s with store } (.string "né") store ∧
      Gives t .start "reverseList" (.string "né") s (.string "én") store'') ∧
    (∃ text b store, Gives t .start "listToString" (.list 0) s (.string text) s.store ∧
      Gives t .start "stringToList" (.string text) s (.list b) store ∧
      store.cells[b]? = some (.list letters.toArray)) ∧
    ∃ r store, Gives t .start "reverseList" (.list 1) s r store ∧
      ∃ part, store.indexGet r (.number (ofNat 0)) = .ok part ∧
        store.indexGet (.list 1) (.number (ofNat 2)) = .ok part := by
  intro t letters items s
  have found : ∀ f ∈ [stringToList, listToString, reverseList],
      Intrinsic.ofName? f.name = none ∧ t.find? f.name = some f := by
    decide +kernel
  have bundled (f : Function) (member : f ∈ [stringToList, listToString, reverseList])
      (given : f ∈ reverseList :: functions) : Bundled t f.name f.name :=
    .of_find? given (found f member).1 (found f member).2
  have visible : ∀ word ∈ ["size", "typeOf"], s.scopes.target word = word := fun _ _ => rfl
  obtain ⟨texts, lists, values⟩ := conversions_fit_reversal (s := s)
    (bundled stringToList (by simp) (by simp [functions]))
    (bundled listToString (by simp) (by simp [functions])) (bundled reverseList (by simp) (by simp))
    visible .start
  obtain ⟨a, -, reversed, store, -, store'', listed, joined, -, -, direct, turned⟩ :=
    texts "né" (by decide)
  obtain rfl : reversed = "én" := String.toList_inj.1 (turned.trans (by decide))
  have single : ∀ x ∈ letters, ∃ c, x = .string (String.singleton c) := by
    simp only [letters, List.forall_mem_cons]
    exact ⟨⟨'n', rfl⟩, ⟨'é', rfl⟩, List.forall_mem_nil _⟩
  obtain ⟨r, -, -, store₁, -, once, -, -, -, -, -, index⟩ :=
    values false (.list 1) items (.list rfl) (by decide)
  exact ⟨visible, ⟨a, store, store'', listed, joined, direct⟩,
    lists 0 letters rfl (by decide) single, r, store₁, once,
    index 0 _ _ (by decide) (Number.value?_ofNat (by decide)) (Number.value?_ofNat (by decide))⟩

end Library

end Script
