/-
# Script.Proofs.Library.Unique -- the first of equal parts

`firsts` keeps of a list those items that none before them is the same as.  If being the same passes
on, then it does not matter whether an item is compared with all items before it or with those that
were kept (`any_firsts`), so `uniqueList`, which looks at what it has kept, keeps the first of
equal parts (`uniqueList_keeps_firsts`).

Equality need not be reflexive for that: not-a-number is equal to nothing, and always kept.
-/
import Script.Proofs.Library.Conversions

namespace Script

set_option autoImplicit false

open Number (ofNat)

/-! ## First occurrences -/

section

variable {α : Type} {same : α → α → Bool} {items : List α}

/-- The items that are the same as none before them. -/
def firsts (same : α → α → Bool) (items : List α) : List α :=
  (items.zipIdx.filter fun entry => !(items.take entry.2).any (same · entry.1)).map Prod.fst

theorem firsts_concat (items : List α) (x : α) :
    firsts same (items ++ [x]) =
      if items.any (same · x) then firsts same items else firsts same items ++ [x] := by
  have before : items.zipIdx.filter
      (fun entry => !((items ++ [x]).take entry.2).any (same · entry.1)) =
        items.zipIdx.filter fun entry => !(items.take entry.2).any (same · entry.1) := by
    refine List.filter_congr fun entry member => ?_
    have inside := (List.mem_zipIdx member).2.1
    rw [List.take_append_of_le_length (by omega)]
  rw [firsts, List.zipIdx_append, List.filter_append, before]
  by_cases seen : items.any (same · x) = true <;> simp [firsts, seen]

theorem firsts_subset (same : α → α → Bool) (items : List α) : firsts same items ⊆ items := by
  intro x member
  obtain ⟨entry, kept, rfl⟩ := List.mem_map.1 member
  exact List.fst_mem_of_mem_zipIdx (List.mem_filter.1 kept).1

theorem length_firsts_le (same : α → α → Bool) (items : List α) :
    (firsts same items).length ≤ items.length := by
  rw [firsts, List.length_map]
  exact (List.length_filter_le _ _).trans (by simp)

/-- What passes on from an item to those that are the same holds of some item if it does of one that
was kept: the induction is on the items, from the end. -/
theorem any_firsts {p : α → Bool}
    (passes : ∀ u ∈ items, ∀ v ∈ items, same u v = true → p v = true → p u = true) :
    (firsts same items).any p = items.any p := by
  induction items using List.reverseRecOn with
  | nil => rfl
  | append_singleton items x ih =>
      have fewer := ih fun u first v second =>
        passes u (List.mem_append_left _ first) v (List.mem_append_left _ second)
      rw [firsts_concat, List.any_append, ← fewer]
      split
      · rename_i seen
        obtain ⟨u, member, level⟩ := List.any_eq_true.1 seen
        by_cases up : p x = true
        · have down := passes u (by simp [member]) x (by simp) level up
          have found : items.any p = true := List.any_eq_true.2 ⟨u, member, down⟩
          simp [fewer, found]
        · simp [up]
      · rw [List.any_append]

theorem pairwise_firsts (same : α → α → Bool) (items : List α) :
    (firsts same items).Pairwise fun v w => same v w = false := by
  induction items using List.reverseRecOn with
  | nil => exact .nil
  | append_singleton items x ih =>
      rw [firsts_concat]
      split
      · exact ih
      · rename_i new
        refine List.pairwise_append.2 ⟨ih, List.pairwise_singleton _ _, fun v kept w last => ?_⟩
        rw [List.mem_singleton.1 last]
        have none := List.any_eq_false.1 (Bool.eq_false_iff.2 new) v (firsts_subset same items kept)
        exact Bool.eq_false_iff.2 none

/-- Items no two of which are the same are all kept. -/
theorem firsts_eq_self (apart : items.Pairwise fun v w => same v w = false) :
    firsts same items = items := by
  induction items using List.reverseRecOn with
  | nil => rfl
  | append_singleton items x ih =>
      obtain ⟨left, -, last⟩ := List.pairwise_append.1 apart
      have new : items.any (same · x) = false :=
        List.any_eq_false.2 fun v member => by simp [last v member x (by simp)]
      rw [firsts_concat, new, if_neg Bool.false_ne_true, ih left]

end

namespace Store

variable {s s' : Store} {u v w : Value}

/-- Whether two values can be compared and are equal. -/
def same (s : Store) (v w : Value) : Bool :=
  match s.equal v w with
  | .ok equal => equal
  | .error _ => false

theorem Acyclic.equal_eq_same (left : s.Acyclic v) (right : s.Acyclic w) :
    s.equal v w = .ok (s.same v w) := by
  obtain ⟨equal, compared⟩ := left.ends_equal right
  rw [same, compared]

theorem same_comm (left : s.Acyclic v) (right : s.Acyclic w) : s.same v w = s.same w v := by
  rw [same, same, equal_comm left right]

theorem same_trans (first : s.Acyclic u) (second : s.Acyclic v) (third : s.Acyclic w)
    (level : s.same u v = true) (level' : s.same v w = true) : s.same u w = true := by
  have left := first.equal_eq_same second
  have right := second.equal_eq_same third
  rw [level] at left
  rw [level'] at right
  rw [same, equal_trans first second third left right]

theorem Extends.same_eq (extended : s.Extends s') (left : s.Stored v) (right : s.Stored w)
    (first : s.Acyclic v) (second : s.Acyclic w) : s'.same v w = s.same v w := by
  rw [same, same, extended.equal_eq left right first second]

end Store

/-! ## The loops -/

namespace Library

open Eval

variable {t : FunctionTable} {s base : State} {v u x : Value} {parts kept : List Value}
  {asText : Bool} {same : Value → Value → Bool} {i : Nat}

/-- One look at a part that was kept. -/
theorem inScope_markSeen {j : Nat} {b : Bool} {y : Value}
    (reading : Reading base "items" "i" v parts i) (there : parts[i]? = some x)
    (bound : base.scopes.lookup "result" = some u) (spells : base.store.Spells asText u kept)
    (small : kept.length < 2 ^ 53) (here : kept[j]? = some y)
    (compared : base.store.equal y x = .ok (same y x)) (line steps : Nat) :
    Run.inScope (statements t
        [.branch ⟨line + 1, 13⟩
          (.binary ⟨line + 1, 27⟩ .equal
            (itemAt "result" (line + 1) 17 (.name ⟨line + 1, 24⟩ "j"))
            (partAt "items" (line + 1) 30))
          [setTo (line + 2) 17 "seen" (.bool ⟨line + 2, 24⟩ true)] none] (steps + 6))
      ((base.holding [("seen", .bool b)]).counting "j" j) =
      .done .next ((base.holding [("seen", .bool (b || same y x))]).counting "j" j) := by
  let frames : List (List (String × Value)) :=
    [[], [("j", .number (ofNat j))], [("seen", .bool b)]]
  have first : Reading (base.inside frames) "items" "i" v parts i :=
    reading.inside (by simp [frames])
  have bound' : (base.inside frames).scopes.lookup "result" = some u :=
    (Scopes.lookup_inside (by simp [frames]) base.scopes).trans bound
  have second : Reading (base.inside frames) "result" "j" u kept j :=
    ⟨bound', spells.hasParts, rfl, small⟩
  have asked : expr t (.binary ⟨line + 1, 27⟩ .equal
      (itemAt "result" (line + 1) 17 (.name ⟨line + 1, 24⟩ "j")) (partAt "items" (line + 1) 30))
      (steps + 4) (base.inside frames) = .done (.bool (same y x)) (base.inside frames) :=
    expr_binary (second.expr_itemAt here) (first.expr_itemAt there)
      (Store.binary_of_equal compared).1
  cases found : same y x with
  | false =>
      rw [found] at asked
      rw [Bool.or_false]
      exact inScope_statement (statement_branch_none asked rfl)
  | true =>
      rw [found] at asked
      rw [Bool.or_true]
      have assigned : ((base.holding [("seen", .bool b)]).inside
          [[], [], [("j", .number (ofNat j))]]).assign "seen" (.bool true) =
            (base.holding [("seen", .bool true)]).inside [[], [], [("j", .number (ofNat j))]] := by
        rw [State.assign_inside _ (by simp) rfl]
        rfl
      exact inScope_statement ((statement_branch_yes asked rfl).trans (inScope_statement
        ((statement_expr (expr_assign (expr_bool true))).trans (congrArg _ assigned))))

/-- The inner loop looks whether a part that was kept is equal to the one at `i`. -/
theorem statement_seenLoop (reading : Reading base "items" "i" v parts i)
    (there : parts[i]? = some x) (bound : base.scopes.lookup "result" = some u)
    (spells : base.store.Spells asText u kept) (small : kept.length < 2 ^ 53)
    (unshadowed : base.scopes.target "size" = "size")
    (compared : ∀ y ∈ kept, base.store.equal y x = .ok (same y x)) {line steps : Nat}
    (enough : kept.length + 20 ≤ steps) :
    statement t (seenLoop line) steps (base.holding [("seen", .bool false)]) =
      .done .next (base.holding [("seen", .bool (kept.any (same · x)))]) := by
  let states (j : Nat) : State := base.holding [("seen", .bool ((kept.take j).any (same · x)))]
  have bounds : Bounds t ["j", "seen"] base (sizeOf line 29 "result") kept.length :=
    .sizeOf (by decide) unshadowed bound spells
  have keeps (j : Nat) : base.Keeps ["j", "seen"] ((states j).counting "j" j) := by
    refine ((State.Keeps.refl _ base).holding fun word other => ?_).counting (by simp) j
    simp only [List.mem_cons, List.not_mem_nil, or_false, not_or] at other
    simp [other.2]
  have last : states kept.length = base.holding [("seen", .bool (kept.any (same · x)))] := by
    simp only [states, List.take_length]
  rw [← last]
  refine statement_count (c := 12) states rfl small
    (fun j _ steps enough => bounds _ (keeps j) steps (by omega)) (fun j inside steps enough => ?_)
    (by omega)
  have next : (kept.take (j + 1)).any (same · x) =
      ((kept.take j).any (same · x) || same kept[j] x) := by
    rw [← List.take_append_getElem inside, List.any_append]
    simp
  simp only [states, next]
  obtain ⟨more, rfl⟩ := Nat.exists_eq_add_of_le' enough
  exact inScope_markSeen reading there bound spells small (List.getElem?_eq_getElem inside)
    (compared _ (List.getElem_mem inside)) line (more + 6)

/-- Whatever is added to the store, comparing these values gives these answers. -/
def Decides (same : Value → Value → Bool) (s : Store) (parts : List Value) : Prop :=
  ∀ s', s.Extends s' → ∀ v ∈ parts, ∀ w ∈ parts, s'.equal v w = .ok (same v w)

section

variable {r : State} {n k : Nat}

/-- What is done with `seen` decides about the round: the part is added if it is false. -/
theorem statement_addIfUnseen (fits : Fits asText x)
    (gathers : Gathered s [("items", v), ("text", .bool asText), ("result", u)] "result" n asText
      kept r) (reading : Reading (r.counting "i" k) "items" "i" v parts k)
    (there : parts[k]? = some x) (seen : Bool) :
    ∃ r', Gathered s [("items", v), ("text", .bool asText), ("result", u)] "result" n asText
        (if seen then kept else kept ++ [x]) r' ∧
      ∀ steps, statement t (.branch ⟨102, 9⟩ (.unary ⟨102, 13⟩ .not (.name ⟨102, 14⟩ "seen"))
          [addLike 103 13] none) (steps + 20) ((r.counting "i" k).holding [("seen", .bool seen)]) =
            .done .next ((r'.counting "i" k).holding [("seen", .bool seen)]) := by
  have asked (steps : Nat) : expr t (.unary ⟨102, 13⟩ .not (.name ⟨102, 14⟩ "seen")) (steps + 2)
      ((r.counting "i" k).holding [("seen", .bool seen)]) =
        .done (.bool !seen) ((r.counting "i" k).holding [("seen", .bool seen)]) :=
    expr_unary (expr_name rfl) rfl
  cases seen with
  | true => exact ⟨r, gathers, fun _ => statement_branch_none (asked _) rfl⟩
  | false =>
      let frames : List (List (String × Value)) :=
        [[], [("seen", .bool false)], [("i", .number (ofNat k))]]
      have away : ∀ inner ∈ frames, inner.lookup "result" = none := by simp [frames]
      have inner : Reading ((r.counting "i" k).inside [[], [("seen", .bool false)]])
          "items" "i" v parts k := reading.inside (by simp)
      have kind : (r.inside frames).scopes.lookup "text" = some (.bool asText) :=
        (Scopes.lookup_inside (by simp [frames]) r.scopes).trans
          (gathers.keeps.lookup "text" (by decide))
      obtain ⟨r', gathers', added⟩ :=
        gathers.statement_addLike (t := t) away inner kind there fits
      refine ⟨r', gathers', fun steps => ?_⟩
      exact (statement_branch_yes (asked _) rfl).trans (inScope_statement (added 103 13 _))

variable (spells : s.store.Spells asText v parts) (small : parts.length < 2 ^ 53)
  (decides : Decides same s.store parts) (fits : ∀ x ∈ parts, Fits asText x)
  (unshadowed : s.scopes.target "size" = "size")

include spells small decides fits unshadowed

/-- One round adds the part unless an equal one was kept. -/
theorem inScope_addUnseen
    (gathers : Gathered s [("items", v), ("text", .bool asText), ("result", u)] "result" n asText
      kept r) (inside : kept ⊆ parts) (fewer : kept.length ≤ parts.length)
    (there : parts[k]? = some x) :
    ∃ r', Gathered s [("items", v), ("text", .bool asText), ("result", u)] "result" n asText
        (if kept.any (same · x) then kept else kept ++ [x]) r' ∧
      ∀ steps, parts.length + 25 ≤ steps →
        Run.inScope (statements t addUnseen steps) (r.counting "i" k) =
          .done .next (r'.counting "i" k) := by
  let base : State := r.counting "i" k
  have keeps := gathers.keeps_counting k
  have extended := gathers.grows.extended
  have reading : Reading base "items" "i" v parts k :=
    gathers.reading spells small (by decide) rfl k
  obtain ⟨u', bound, made⟩ := gathers.result
  have member : x ∈ parts := List.mem_of_getElem? there
  have compared : ∀ y ∈ kept, base.store.equal y x = .ok (same y x) :=
    fun y here => decides _ extended y (inside here) x member
  have declared (steps : Nat) : statement t (.declare ⟨96, 13⟩ "seen" (.bool ⟨96, 20⟩ false))
      (steps + 2) (base.holding []) = .done .next (base.holding [("seen", .bool false)]) :=
    statement_declare (expr_bool false) rfl
  have looked (steps : Nat) (enough : kept.length + 20 ≤ steps) :
      statement t (seenLoop 97) steps (base.holding [("seen", .bool false)]) = _ :=
    statement_seenLoop reading there ((r.lookup_counting_of_ne (by decide)).trans bound) made.spells
      (fewer.trans_lt small) ((keeps.target (by decide)).trans unshadowed) compared enough
  obtain ⟨r', gathers', added⟩ := statement_addIfUnseen (t := t) (fits x member) gathers reading
    there (kept.any (same · x))
  refine ⟨r', gathers', fun steps enough => ?_⟩
  obtain ⟨more, rfl⟩ : ∃ more, steps = more + parts.length + 22 + 3 :=
    ⟨steps - parts.length - 25, by omega⟩
  exact inScope_done ((statements_next (declared _)).trans ((statements_next
    (looked (more + parts.length + 23) (by omega))).trans ((statements_next
      (added (more + parts.length + 2))).trans statements_nil)))

/-- The outer loop keeps the first of equal parts. -/
theorem statement_uniqueLoop
    (trans : ∀ u ∈ parts, ∀ v ∈ parts, ∀ w ∈ parts,
      same u v = true → same v w = true → same u w = true)
    (begun : Gathered s [("items", v), ("text", .bool asText), ("result", u)] "result" n asText []
      r) :
    ∃ r', Gathered s [("items", v), ("text", .bool asText), ("result", u)] "result" n asText
        (firsts same parts) r' ∧
      ∀ steps, 2 * parts.length + 30 ≤ steps →
        statement t (countLoop 95 5 "i" 11 (sizeOf 95 25 "items") addUnseen) steps r =
          .done .next r' := by
  let bindings : List (String × Value) := [("items", v), ("text", .bool asText), ("result", u)]
  have bounds : Bounds t ["i", "result"] (s.holding bindings) (sizeOf 95 25 "items") parts.length :=
    .sizeOf (by decide) unshadowed rfl spells
  have passes : ∀ k < parts.length, ∀ r,
      Gathered s bindings "result" n asText (firsts same (parts.take k)) r →
      ∃ r', Gathered s bindings "result" n asText (firsts same (parts.take (k + 1))) r' ∧
        ∀ steps, parts.length + 25 ≤ steps →
          Run.inScope (statements t addUnseen steps) (r.counting "i" k) =
            .done .next (r'.counting "i" k) := by
    intro k less r gathers
    have subset : firsts same (parts.take k) ⊆ parts := fun x kept =>
      List.mem_of_mem_take (firsts_subset same _ kept)
    have fewer : (firsts same (parts.take k)).length ≤ parts.length :=
      (length_firsts_le same _).trans (by simp)
    have seen : (firsts same (parts.take k)).any (same · parts[k]) =
        (parts.take k).any (same · parts[k]) :=
      any_firsts fun u first v second => trans u (List.mem_of_mem_take first) v
        (List.mem_of_mem_take second) _ (List.getElem_mem less)
    rw [← List.take_append_getElem less, firsts_concat, ← seen]
    exact inScope_addUnseen spells small decides fits unshadowed gathers subset fewer
      (List.getElem?_eq_getElem less)
  obtain ⟨r', gathers, ended⟩ := statement_counted
    (fun k r => Gathered s bindings "result" n asText (firsts same (parts.take k)) r) begun small
    (fun k _ r gathers steps enough => bounds _ (gathers.keeps_counting k) steps (by omega)) passes
  rw [List.take_length] at gathers
  exact ⟨r', gathers, fun steps enough => ended steps (by omega)⟩

end

theorem Decides.later {store store' : Store} (decides : Decides same store parts)
    (extended : store.Extends store') : Decides same store' parts :=
  fun later further => decides later (extended.trans further)

/-- The function makes a new text or list of the first of equal parts. -/
theorem apply_uniqueList {name : String} {p : Position} (bundled : Bundled t "uniqueList" name)
    (unshadowed : s.scopes.target "size" = "size") (typed : s.scopes.target "typeOf" = "typeOf")
    (spells : s.store.Spells asText v parts) (small : parts.length < 2 ^ 53)
    (decides : Decides same s.store parts)
    (trans : ∀ u ∈ parts, ∀ v ∈ parts, ∀ w ∈ parts,
      same u v = true → same v w = true → same u w = true) :
    ∃ u store, s.store.Extends store ∧ store.Made s.store.size asText u (firsts same parts) ∧
      ∀ steps, 2 * parts.length + 50 ≤ steps →
        apply t p name [v] steps s = .done u { s with store } := by
  have called : t.find? name = some uniqueList := bundled.find? (by simp [functions])
  obtain ⟨u, store, extended, made, ended⟩ := apply_emptyLike (p := p) bundled.plain called rfl rfl
    typed spells fun s' u r same extended begun =>
      statement_uniqueLoop (spells.later extended) small (decides.later extended)
        (fits_of_spells spells) (same ▸ unshadowed) trans begun
  exact ⟨u, store, extended, made, fun steps enough => ended steps (by omega)⟩

/-! ## Looking for a part -/

section

variable {target : Value} (spells : s.store.Spells asText v parts) (small : parts.length < 2 ^ 53)
  (compared : ∀ x ∈ parts, s.store.equal x target = .ok (same x target))
  (unshadowed : s.scopes.target "size" = "size")

include spells small compared

/-- A round returns if the part is equal to the target. -/
theorem inScope_returnIfEqual {k : Nat} (inside : k < parts.length) (steps : Nat) :
    Run.inScope (statements t returnIfEqual (steps + 6))
        ((s.holding [("items", v), ("target", target)]).counting "i" k) =
      .done (if same parts[k] target then .returned (.bool true) else .next)
        ((s.holding [("items", v), ("target", target)]).counting "i" k) := by
  let base : State := (s.holding [("items", v), ("target", target)]).counting "i" k
  have reading : Reading base "items" "i" v parts k := ⟨rfl, spells.hasParts, rfl, small⟩
  have inner : Reading (base.inside [[]]) "items" "i" v parts k := reading.inside (by simp)
  have asked : expr t (.binary ⟨115, 22⟩ .equal (partAt "items" 115 13) (.name ⟨115, 25⟩ "target"))
      (steps + 4) (base.holding []) = .done (.bool (same parts[k] target)) (base.holding []) :=
    expr_binary (inner.expr_itemAt (List.getElem?_eq_getElem inside)) (expr_name rfl)
      (Store.binary_of_equal (compared _ (List.getElem_mem inside))).1
  cases found : same parts[k] target with
  | false =>
      rw [found] at asked
      exact inScope_statement (statement_branch_none asked rfl)
  | true =>
      rw [found] at asked
      exact inScope_done (statements_returned ((statement_branch_yes asked rfl).trans
        (inScope_done (statements_returned (statement_return (expr_bool true))))))

include unshadowed in
/-- The loop returns at the first part that is equal to the target, or else goes on to the end. -/
theorem statement_containsLoop {steps : Nat} (enough : parts.length + 29 ≤ steps) :
    statement t (countLoop 114 5 "i" 11 (sizeOf 114 25 "items") returnIfEqual) steps
        (s.holding [("items", v), ("target", target)]) =
      .done (if parts.any (same · target) then .returned (.bool true) else .next)
        (s.holding [("items", v), ("target", target)]) := by
  let base : State := s.holding [("items", v), ("target", target)]
  have bounds : Bounds t ["i"] base (sizeOf 114 25 "items") parts.length :=
    .sizeOf (by decide) unshadowed rfl spells
  have bounded (k steps : Nat) (enough : 20 ≤ steps) :
      expr t (sizeOf 114 25 "items") steps (base.counting "i" k) =
        .done (.number (ofNat parts.length)) (base.counting "i" k) :=
    bounds _ ((State.Keeps.refl ["i"] base).counting List.mem_cons_self k) steps (by omega)
  have round (k : Nat) (inside : k < parts.length) (steps : Nat) (enough : 20 ≤ steps) :
      Run.inScope (statements t returnIfEqual steps) (base.counting "i" k) =
        .done (if same parts[k] target then .returned (.bool true) else .next)
          (base.counting "i" k) := by
    obtain ⟨more, rfl⟩ := Nat.exists_eq_add_of_le' enough
    exact inScope_returnIfEqual spells small compared inside (more + 14)
  have passes (k : Nat) (inside : k < parts.length) (apart : same parts[k] target = false)
      (steps : Nat) (enough : 20 ≤ steps) :
      Run.inScope (statements t returnIfEqual steps) (base.counting "i" k) =
        .done .next (base.counting "i" k) := by
    rw [round k inside steps enough, apart, if_neg Bool.false_ne_true]
  cases found : parts.any (same · target) with
  | false =>
      have apart (k : Nat) (inside : k < parts.length) : same parts[k] target = false :=
        Bool.eq_false_iff.2 (List.any_eq_false.1 found _ (List.getElem_mem inside))
      exact statement_count (fun _ => base) rfl small (fun k _ => bounded k)
        (fun k inside => passes k inside (apart k inside)) (by omega)
  | true =>
      have inside : parts.findIdx (same · target) < parts.length :=
        List.findIdx_lt_length_of_exists (List.any_eq_true.1 found)
      have equal : same parts[parts.findIdx (same · target)] target = true :=
        List.findIdx_getElem (p := (same · target)) (w := inside)
      have left (steps : Nat) (enough : 20 ≤ steps) :
          Run.inScope (statements t returnIfEqual steps)
            (base.counting "i" (parts.findIdx (same · target))) =
              .done (.returned (.bool true))
                (base.counting "i" (parts.findIdx (same · target))) := by
        rw [round _ inside steps enough, equal, if_pos rfl]
      exact statement_count_returned (fun _ => base) rfl small inside (fun k _ => bounded k)
        (fun k less => passes k (less.trans inside) (List.not_of_lt_findIdx less)) left (by omega)

include unshadowed in
theorem statements_contains {steps : Nat} (enough : parts.length + 30 ≤ steps) :
    statements t contains.body steps (s.holding [("items", v), ("target", target)]) =
      .done (.returned (.bool (parts.any (same · target))))
        (s.holding [("items", v), ("target", target)]) := by
  obtain ⟨more, rfl⟩ : ∃ more, steps = more + parts.length + 27 + 3 :=
    ⟨steps - parts.length - 30, by omega⟩
  have ended := statement_containsLoop (t := t) spells small compared unshadowed
    (by omega : parts.length + 29 ≤ more + parts.length + 29)
  cases found : parts.any (same · target) with
  | false =>
      rw [found, if_neg Bool.false_ne_true] at ended
      exact (statements_next ended).trans (statements_returned (statement_return (expr_bool false)))
  | true =>
      rw [found, if_pos rfl] at ended
      exact statements_returned ended

include unshadowed in
theorem apply_contains {name : String} {p : Position} (bundled : Bundled t "contains" name)
    {steps : Nat} (enough : parts.length + 40 ≤ steps) :
    apply t p name [v, target] steps s = .done (.bool (parts.any (same · target))) s := by
  have called : t.find? name = some contains := bundled.find? (by simp [functions])
  obtain ⟨more, rfl⟩ : ∃ more, steps = more + parts.length + 38 + 2 :=
    ⟨steps - parts.length - 40, by omega⟩
  let c : State := { s with calls := s.calls.push ⟨name, p⟩ }
  have body : statements t contains.body (more + parts.length + 38)
      (c.holding [("items", v), ("target", target)]) = _ :=
    statements_contains (s := c) spells small compared unshadowed (by omega)
  exact apply_user bundled.plain called rfl rfl body

end

/-! ## The functions -/

/-- **`uniqueList` keeps the first of equal parts.**  Called on a list of acyclic items, or on a
text, it ends with a new list or a text of those parts, in their order, that are equal to none
before them; nothing that was there is changed.  So no two parts of the result are equal, calling it
on the result gives the same parts, and `contains` finds an acyclic value in the argument if and
only if it does in the result. -/
theorem uniqueList_keeps_firsts {unique search : String} (uniques : Bundled t "uniqueList" unique)
    (searches : Bundled t "contains" search)
    (unshadowed : ∀ word ∈ ["size", "typeOf"], s.scopes.target word = word)
    (spells : s.store.Spells asText v parts) (small : parts.length < 2 ^ 53)
    (acyclic : ∀ x ∈ parts, s.store.Acyclic x) (stored : ∀ x ∈ parts, s.store.Stored x)
    (p : Position) :
    ∃ r store, callFunction t unique [v] p s = .done r { s with store } ∧
      s.store.Extends store ∧ store.Spells asText v parts ∧
      store.Made s.store.size asText r (firsts s.store.same parts) ∧
      (firsts s.store.same parts).Pairwise
        (fun x y => store.equal x y = .ok false ∧ store.equal y x = .ok false) ∧
      (∃ r' store', callFunction t unique [r] p { s with store } =
          .done r' { s with store := store' } ∧
        store'.Made store.size asText r' (firsts s.store.same parts)) ∧
      ∀ target, store.Acyclic target → ∃ found,
        callFunction t search [v, target] p { s with store } =
          .done (.bool found) { s with store } ∧
        callFunction t search [r, target] p { s with store } =
          .done (.bool found) { s with store } := by
  let kept := firsts s.store.same parts
  have sized := unshadowed "size" (by simp)
  have typed := unshadowed "typeOf" (by simp)
  have enough : 2 * parts.length + 50 ≤ limit := by
    rw [limit]
    omega
  have subset : kept ⊆ parts := firsts_subset _ parts
  have fewer : (firsts s.store.same parts).length ≤ parts.length := length_firsts_le _ parts
  have decides : Decides s.store.same s.store parts := fun later extended v first w second =>
    (extended.equal_eq (stored v first) (stored w second) (acyclic v first)
      (acyclic w second)).trans ((acyclic v first).equal_eq_same (acyclic w second))
  have trans : ∀ u ∈ parts, ∀ v ∈ parts, ∀ w ∈ parts, s.store.same u v = true →
      s.store.same v w = true → s.store.same u w = true := fun u first v second w third =>
    Store.same_trans (acyclic u first) (acyclic v second) (acyclic w third)
  obtain ⟨r, store, extended, made, ended⟩ :=
    apply_uniqueList (p := p) uniques sized typed spells small decides trans
  have apart : kept.Pairwise fun x y => s.store.same x y = false := pairwise_firsts _ parts
  refine ⟨r, store, ended limit enough, extended, spells.later extended, made, ?_, ?_, ?_⟩
  · refine apart.imp_of_mem fun {x y} first second differ => ?_
    have forth := decides store extended x (subset first) y (subset second)
    have back := decides store extended y (subset second) x (subset first)
    rw [Store.same_comm (acyclic y (subset second)) (acyclic x (subset first)), differ] at back
    rw [differ] at forth
    exact ⟨forth, back⟩
  · obtain ⟨r', store', -, made', ended'⟩ := apply_uniqueList (p := p) (s := { s with store })
      uniques sized typed made.spells (fewer.trans_lt small)
      (fun later further v first w second => decides later (extended.trans further) v (subset first)
        w (subset second))
      (fun u first v second w third => trans u (subset first) v (subset second) w (subset third))
    rw [firsts_eq_self apart] at made'
    exact ⟨r', store', ended' limit (by omega), made'⟩
  · intro target whole
    have acyclic' : ∀ x ∈ parts, store.Acyclic x := fun x member =>
      extended.acyclic (stored x member) (acyclic x member)
    have compared : ∀ x ∈ parts, store.equal x target = .ok (store.same x target) :=
      fun x member => (acyclic' x member).equal_eq_same whole
    have found : kept.any (store.same · target) = parts.any (store.same · target) := by
      refine any_firsts fun x first y second level found => ?_
      rw [← extended.same_eq (stored x first) (stored y second) (acyclic x first)
        (acyclic y second)] at level
      exact Store.same_trans (acyclic' x first) (acyclic' y second) whole level found
    refine ⟨parts.any (store.same · target), ?_, ?_⟩
    · exact apply_contains (s := { s with store }) (spells.later extended) small compared sized
        searches (by omega)
    · rw [← found]
      exact apply_contains (s := { s with store }) made.spells (fewer.trans_lt small)
        (fun x member => compared x (subset member)) sized searches (by omega)

/-- Of two ones the first is kept, and of two that are not a number both. -/
theorem uniqueList_of_one_and_not_a_number :
    let items : List Value := [.number 1, .number (0 / 0), .number 1, .number (0 / 0)]
    let s : State := { State.start (.lines []) with store := ⟨#[.list items.toArray]⟩ }
    (∀ word ∈ ["size", "typeOf"], s.scopes.target word = word) ∧
      s.store.Spells false (.list 0) items ∧ (∀ x ∈ items, s.store.Acyclic x) ∧
      (∀ x ∈ items, s.store.Stored x) ∧
      ∃ r store, callFunction table "uniqueList" [.list 0] .start s = .done r { s with store } ∧
        store.Made 1 false r [.number 1, .number (0 / 0), .number (0 / 0)] := by
  intro items s
  have plain : ∀ x ∈ items, x.address? = none := by simp [items, Value.address?]
  have acyclic : ∀ x ∈ items, s.store.Acyclic x := fun x member => .of_address? (plain x member)
  have stored : ∀ x ∈ items, s.store.Stored x := fun x member => .of_address? (plain x member)
  have visible : ∀ word ∈ ["size", "typeOf"], s.scopes.target word = word := fun _ _ => rfl
  have spells : s.store.Spells false (.list 0) items := .list rfl
  obtain ⟨r, store, ended, -, -, made, -⟩ :=
    uniqueList_keeps_firsts (bundled_table uniqueList (by simp [functions]))
      (bundled_table contains (by simp [functions])) visible spells (by decide) acyclic stored
      .start
  have same (x y : Float) : s.store.same (.number x) (.number y) = (x == y) := rfl
  have ones : ((1 : Float) == 1) = true := by decide +kernel
  have apart : ((1 : Float) == 0 / 0) = false ∧ ((0 / 0 : Float) == 1) = false ∧
      ((0 / 0 : Float) == 0 / 0) = false := by decide +kernel
  have kept : firsts s.store.same items = [.number 1, .number (0 / 0), .number (0 / 0)] := by
    simp [firsts, items, List.zipIdx, same, ones, apart]
  exact ⟨visible, spells, acyclic, stored, r, store, ended, kept ▸ made⟩

end Library

end Script
