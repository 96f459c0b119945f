/-
# Script.Proofs.Library.Parts -- lists and texts made part by part

The functions of module `std` that make a list or a text begin with an empty one and add one part
after the other.  A value `Spells` its parts, the items of a list or the characters of a text, and
is `Made` of them if it is a list that was not there before.  What `addPart` does to such a value is
the same for both (`Reading.statement_addPart`), and `gatherLoop` adds all parts of another
(`statement_gatherLoop`).

Adding to a list makes two more, so the store grows and nothing in it changes (`Store.Grows`).
-/
import Script.Proofs.Eval.Mapping
import Script.Proofs.Library.Sorting
import Script.Proofs.Store.Growth

namespace Script

set_option autoImplicit false

open Number (ofNat)

/-! ## Values and their parts -/

namespace Store

variable {s s' : Store} {asText : Bool} {v : Value} {parts : List Value} {n : Nat}

/-- The value is a text with these characters, or a list with these items. -/
inductive Spells (s : Store) : Bool → Value → List Value → Prop
  | text (text : String) : Spells s true (.string text) (Eval.letters text.toList)
  | list {a : Nat} {items : List Value} (held : s.cells[a]? = some (.list items.toArray)) :
      Spells s false (.list a) items

theorem Spells.hasParts (spells : s.Spells asText v parts) : s.HasParts v parts := by
  cases spells with
  | text text => exact s.hasParts_string text
  | @list a _ held =>
      have contents : (s.items a).toList = parts := by
        rw [Store.items, held]
      exact contents ▸ s.hasParts_list a

theorem Spells.later (spells : s.Spells asText v parts) (extended : s.Extends s') :
    s'.Spells asText v parts := by
  cases spells with
  | text text => exact .text text
  | list held =>
      obtain ⟨there, -⟩ := Array.getElem?_eq_some_iff.1 held
      exact .list ((extended.cells there).trans held)

theorem Spells.typeOf (spells : s.Spells asText v parts) :
    s.typeOf v = .ok (if asText then .string else .list) := by
  cases spells <;> rfl

/-- The value spells the parts, and is no list among the first `n` containers. -/
structure Made (s : Store) (n : Nat) (asText : Bool) (v : Value) (parts : List Value) : Prop where
  spells : s.Spells asText v parts
  new : ∀ a, v.address? = some a → n ≤ a

/-- There are more containers if lists are made, and the same if texts are. -/
structure Grows (asText : Bool) (s s' : Store) : Prop where
  extended : s.Extends s'
  kept : asText = true → s' = s

theorem Grows.refl (asText : Bool) (s : Store) : Grows asText s s :=
  ⟨.refl s, fun _ => rfl⟩

theorem Grows.trans {s'' : Store} (first : Grows asText s s') (second : Grows asText s' s'') :
    Grows asText s s'' :=
  ⟨first.extended.trans second.extended, fun text => (second.kept text).trans (first.kept text)⟩

theorem made_text (s : Store) (n : Nat) (text : String) :
    s.Made n true (.string text) (Eval.letters text.toList) :=
  ⟨.text text, nofun⟩

theorem made_newList (s : Store) (items : List Value) (below : n ≤ s.size) :
    (s.newList items.toArray).2.Made n false (.list s.size) items := by
  refine ⟨.list Array.getElem?_push_size, ?_⟩
  rintro a ⟨⟩
  exact below

/-- A character is added to a text. -/
theorem Made.add_letter (made : s.Made n true v parts) (c : Char) :
    ∃ w, s.binary .add v (.string (String.singleton c)) = .ok (.value w) ∧
      s.Made n true w (parts ++ [.string (String.singleton c)]) := by
  obtain ⟨⟨text⟩, -⟩ := made
  refine ⟨.string (text ++ String.singleton c), rfl, ?_⟩
  have joined := s.made_text n (text ++ String.singleton c)
  simpa [Eval.letters] using joined

/-- The store behind the sum of a list and one with a single item: that was made, and the sum. -/
def appended (s : Store) (a : Nat) (x : Value) : Store :=
  ((s.newList #[x]).2.newList (s.items a ++ #[x])).2

theorem extends_appended (s : Store) (a : Nat) (x : Value) : s.Extends (s.appended a x) :=
  (Extends.newList s _).trans (Extends.newList _ _)

theorem size_newList (s : Store) (items : Array Value) : (s.newList items).2.size = s.size + 1 :=
  Array.size_push _

theorem cells_appended (s : Store) (a : Nat) (x : Value) :
    (s.appended a x).cells[s.size + 1]? = some (.list (s.items a ++ #[x])) := by
  rw [← s.size_newList #[x]]
  exact Array.getElem?_push_size

theorem binary_appended {a : Nat} (there : a < s.size) (x : Value) :
    (s.newList #[x]).2.binary .add (.list a) (.list s.size) = .ok (.items (s.items a ++ #[x])) := by
  have second : (s.newList #[x]).2.items s.size = #[x] := by
    rw [Store.items, show (s.newList #[x]).2.cells[s.size]? = some (.list #[x]) from
      Array.getElem?_push_size]
  change Except.ok (Product.items ((s.newList #[x]).2.items a ++ (s.newList #[x]).2.items s.size)) =
    _
  rw [(Extends.newList s #[x]).items there, second]

/-- A list keeps its parts when another is made of them and one more. -/
theorem Made.append {a : Nat} (made : s.Made n false (.list a) parts) (x : Value) :
    (s.appended a x).Made n false (.list (s.size + 1)) (parts ++ [x]) := by
  obtain ⟨spells, new⟩ := made
  cases spells with
  | list held =>
      have sum : (s.appended a x).cells[s.size + 1]? = some (.list (parts ++ [x]).toArray) := by
        rw [cells_appended, Store.items, held]
        simp
      obtain ⟨there, -⟩ := Array.getElem?_eq_some_iff.1 held
      refine ⟨.list sum, ?_⟩
      rintro b ⟨⟩
      exact (new a rfl).trans (there.le.trans (Nat.le_succ _))

end Store

/-! ## What a loop leaves alone -/

/-- All that there was in the one state is in the other, but for the values of these variables. -/
structure State.Keeps (words : List String) (s r : State) : Prop where
  extended : s.store.Extends r.store
  lookup : ∀ word ∉ words, r.scopes.lookup word = s.scopes.lookup word

namespace State.Keeps

variable {words : List String} {s r : State} {bindings : List (String × Value)} {word : String}

theorem refl (words : List String) (s : State) : s.Keeps words s :=
  ⟨.refl _, fun _ _ => rfl⟩

theorem mono {more : List String} (keeps : s.Keeps words r) (subset : words ⊆ more) :
    s.Keeps more r :=
  ⟨keeps.extended, fun word other => keeps.lookup word fun inside => other (subset inside)⟩

theorem holding (keeps : s.Keeps words r)
    (others : ∀ word ∉ words, bindings.lookup word = none) :
    s.Keeps words (r.holding bindings) where
  extended := keeps.extended
  lookup word other := by
    rw [scopes_holding, Scopes.lookup_holding, others word other]
    exact keeps.lookup word other

theorem counting (keeps : s.Keeps words r) (counts : word ∈ words) (k : Nat) :
    s.Keeps words (r.counting word k) := by
  refine keeps.holding fun other away => ?_
  have differs : other ≠ word := fun same => away (same ▸ counts)
  simp [List.lookup_cons, beq_false_of_ne differs]

theorem target (keeps : s.Keeps words r) (other : word ∉ words) :
    r.scopes.target word = s.scopes.target word := by
  rw [Scopes.target, Scopes.target, keeps.lookup word other]

end State.Keeps

/-! ## Adding parts -/

namespace Library

variable {t : FunctionTable} {target source : String} {line column steps i n : Nat} {r s : State}
  {asText : Bool} {u v x : Value} {parts gathered : List Value} {bindings : List (String × Value)}

/-- The variable holds a value with these parts, and the index stands at one of them. -/
structure Reading (r : State) (source index : String) (v : Value) (parts : List Value) (i : Nat) :
    Prop where
  bound : r.scopes.lookup source = some v
  has : r.store.HasParts v parts
  counter : r.scopes.lookup index = some (.number (ofNat i))
  small : parts.length < 2 ^ 53

/-- The expression gives this number, whatever values these variables have. -/
def Bounds (t : FunctionTable) (words : List String) (s : State) (e : Expr) (n : Nat) : Prop :=
  ∀ r, s.Keeps words r → ∀ steps, 4 ≤ steps →
    Eval.expr t e steps r = .done (.number (ofNat n)) r

namespace Bounds

open Eval

variable {words : List String} {word : String} {p : Position}

theorem name (other : word ∉ words) (bound : s.scopes.lookup word = some (.number (ofNat n))) :
    Bounds t words s (.name p word) n := by
  intro r keeps steps enough
  obtain ⟨more, rfl⟩ := Nat.exists_eq_add_of_le' enough
  exact expr_name ((keeps.lookup word other).trans bound)

theorem sizeOf (others : word ∉ words ∧ "size" ∉ words)
    (unshadowed : s.scopes.target "size" = "size") (bound : s.scopes.lookup word = some v)
    (spells : s.store.Spells asText v parts) :
    Bounds t words s (Library.sizeOf line column word) parts.length := by
  intro r keeps steps enough
  obtain ⟨more, rfl⟩ := Nat.exists_eq_add_of_le' enough
  exact expr_size ((keeps.target others.2).trans unshadowed)
    (expr_name ((keeps.lookup word others.1).trans bound))
    (spells.later keeps.extended).hasParts.size

end Bounds

/-- What can be added as it is: to a text a character, to a list anything. -/
def Fits (asText : Bool) (x : Value) : Prop :=
  asText = true → ∃ c, x = .string (String.singleton c)

namespace Reading

open Eval

variable {index : String}

theorem inside {frames : List (List (String × Value))} (reading : Reading r source index v parts i)
    (away : ∀ inner ∈ frames, ∀ word ∈ [source, index], inner.lookup word = none) :
    Reading (r.inside frames) source index v parts i where
  bound := (Scopes.lookup_inside (fun inner here => away inner here source (by simp)) _).trans
    reading.bound
  has := reading.has
  counter := (Scopes.lookup_inside (fun inner here => away inner here index (by simp)) _).trans
    reading.counter
  small := reading.small

theorem expr_itemAt {p : Position} (reading : Reading r source index v parts i)
    (there : parts[i]? = some x) :
    expr t (itemAt source line column (.name p index)) (steps + 2) r = .done x r := by
  obtain ⟨inside, -⟩ := List.getElem?_eq_some_iff.1 there
  have whole := Number.value?_ofNat (inside.trans reading.small)
  exact expr_index (expr_name reading.bound) (expr_name reading.counter)
    (reading.has.read whole there)

/-- An item is added to a list. -/
theorem statement_addItem {a : Nat} (reading : Reading r source "i" v parts i)
    (there : parts[i]? = some x) (bound : r.scopes.lookup target = some (.list a))
    (inside : a < r.store.size) (line column steps : Nat) :
    statement t (addPart false target source line column) (steps + 7) r =
      .done .next ({ r with store := r.store.appended a x }.assign target
        (.list (r.store.size + 1))) := by
  refine (statement_expr (expr_assign (expr_realized (expr_name bound)
    (expr_list (exprs_one (reading.expr_itemAt there))) (Store.binary_appended inside x)))).trans ?_
  rw [← r.store.size_newList #[x]]
  rfl

/-- One part is added: if that makes lists these are new, and nothing else in the store changes. -/
theorem statement_addPart (reading : Reading r source "i" v parts i) (there : parts[i]? = some x)
    (bound : r.scopes.lookup target = some u) (made : r.store.Made n asText u gathered)
    (fits : Fits asText x) :
    ∃ u' store, Store.Grows asText r.store store ∧ store.Made n asText u' (gathered ++ [x]) ∧
      ∀ line column steps, statement t (addPart asText target source line column) (steps + 7) r =
        .done .next ({ r with store }.assign target u') := by
  cases asText with
  | true =>
      obtain ⟨c, rfl⟩ := fits rfl
      obtain ⟨u', computed, made'⟩ := made.add_letter c
      refine ⟨u', r.store, .refl _ _, made', fun line column steps => ?_⟩
      exact statement_expr (expr_assign
        (expr_binary (expr_name bound) (reading.expr_itemAt there) computed))
  | false =>
      have spells := made.spells
      obtain @⟨_⟩ | @⟨a, _, held⟩ := spells
      obtain ⟨inside, -⟩ := Array.getElem?_eq_some_iff.1 held
      exact ⟨_, _, ⟨Store.extends_appended _ a x, nofun⟩, made.append x,
        reading.statement_addItem there bound inside⟩

end Reading

/-! ## All parts one after the other -/

open Eval

theorem expr_emptyOf (t : FunctionTable) (s : State) (asText : Bool) :
    ∃ u store, Store.Grows asText s.store store ∧ store.Made s.store.size asText u [] ∧
      ∀ line column steps, expr t (emptyOf asText line column) (steps + 2) s =
        .done u { s with store } := by
  cases asText with
  | true => exact ⟨_, s.store, .refl _ _, s.store.made_text _ "", fun _ _ _ => expr_string ""⟩
  | false =>
      exact ⟨_, _, ⟨.newList _ _, nofun⟩, s.store.made_newList [] le_rfl,
        fun _ _ _ => expr_list exprs_none⟩

/-- The state is `s` inside a scope with these bindings, but for what was added to the store and for
the variable, which holds a value made of these parts. -/
def Gathered (s : State) (bindings : List (String × Value)) (target : String) (n : Nat)
    (asText : Bool) (parts : List Value) (r : State) : Prop :=
  ∃ u store, Store.Grows asText s.store store ∧ store.Made n asText u parts ∧
    r = { s with store }.holding (Scope.bind target u bindings)

namespace Gathered

variable (gathers : Gathered s bindings target n asText gathered r)
include gathers

theorem grows : Store.Grows asText s.store r.store := by
  obtain ⟨u, store, grows, -, rfl⟩ := gathers
  exact grows

theorem result : ∃ u, r.scopes.lookup target = some u ∧ r.store.Made n asText u gathered := by
  obtain ⟨u, store, -, made, rfl⟩ := gathers
  exact ⟨u, (s.scopes.lookup_holding_bind bindings target u target).trans (if_pos rfl), made⟩

theorem keeps : (s.holding bindings).Keeps [target] r where
  extended := gathers.grows.extended
  lookup word other := by
    obtain ⟨u, store, -, -, rfl⟩ := gathers
    exact (s.scopes.lookup_holding_bind bindings target u word).trans
      (if_neg (by simpa using other))

theorem keeps_counting (k : Nat) : (s.holding bindings).Keeps ["i", target] (r.counting "i" k) :=
  (gathers.keeps.mono (by simp)).counting (by simp) k

/-- In every round the loop stands at a part of what it reads from. -/
theorem reading {asText' : Bool} (spells : s.store.Spells asText' v parts)
    (small : parts.length < 2 ^ 53) (other : source ∉ ["i", target])
    (given : (s.holding bindings).scopes.lookup source = some v) (k : Nat) :
    Reading (r.counting "i" k) source "i" v parts k where
  bound := ((gathers.keeps_counting k).lookup source other).trans given
  has := (spells.later gathers.grows.extended).hasParts
  counter := r.lookup_counting
  small := small

/-- Inside scopes that do not have the variable a part is added to it. -/
theorem statement_addPart {frames : List (List (String × Value))}
    (away : ∀ inner ∈ frames, inner.lookup target = none)
    (reading : Reading (r.inside frames) source "i" v parts i) (there : parts[i]? = some x)
    (fits : Fits asText x) :
    ∃ r', Gathered s bindings target n asText (gathered ++ [x]) r' ∧
      ∀ line column steps, statement t (addPart asText target source line column) (steps + 7)
        (r.inside frames) = .done .next (r'.inside frames) := by
  obtain ⟨u, store, grows, made, rfl⟩ := gathers
  let base : State := { s with store }.holding (Scope.bind target u bindings)
  have own : (Scope.bind target u bindings).lookup target = some u :=
    (Scope.lookup_bind target target u bindings).trans (if_pos rfl)
  have bound : base.scopes.lookup target = some u :=
    (s.scopes.lookup_holding_bind bindings target u target).trans (if_pos rfl)
  obtain ⟨u', store', grows', made', added⟩ := reading.statement_addPart (t := t) there
    ((Scopes.lookup_inside away base.scopes).trans bound) made fits
  refine ⟨_, ⟨u', store', grows.trans grows', made', rfl⟩, fun line column steps => ?_⟩
  let later : State := { s with store := store' }
  have assigned : ((later.holding (Scope.bind target u bindings)).inside frames).assign target u' =
      (later.holding (Scope.bind target u' bindings)).inside frames := by
    rw [State.assign_inside (later.holding _) away bound, State.assign_holding own,
      Scope.bind_bind]
  exact (added line column steps).trans (congrArg _ assigned)

end Gathered

/-- The loop adds all parts. -/
theorem statement_gatherLoop {asText' : Bool} {bound : Expr} {width : Nat}
    (begun : Gathered s bindings target n asText gathered r)
    (names : target ≠ "i" ∧ source ≠ "i" ∧ source ≠ target)
    (given : (s.holding bindings).scopes.lookup source = some v)
    (spells : s.store.Spells asText' v parts) (small : parts.length < 2 ^ 53)
    (fits : ∀ x ∈ parts, Fits asText x)
    (bounds : Bounds t ["i", target] (s.holding bindings) bound parts.length) :
    ∃ r', Gathered s bindings target n asText (gathered ++ parts) r' ∧
      ∀ steps, parts.length + 14 ≤ steps →
        statement t (gatherLoop asText target source line width bound) steps r =
          .done .next r' := by
  have first : Gathered s bindings target n asText (gathered ++ parts.take 0) r := by
    rwa [List.take_zero, List.append_nil]
  have passes : ∀ k < parts.length, ∀ r,
      Gathered s bindings target n asText (gathered ++ parts.take k) r →
      ∃ r', Gathered s bindings target n asText (gathered ++ parts.take (k + 1)) r' ∧
        ∀ steps, 9 ≤ steps →
          Run.inScope (statements t [addPart asText target source (line + 1) 9] steps)
            (r.counting "i" k) = .done .next (r'.counting "i" k) := by
    intro k inside r gathers
    have reading : Reading (r.counting "i" k) source "i" v parts k :=
      gathers.reading spells small (by simp [names]) given k
    have outside : ∀ inner ∈ [[], [("i", Value.number (ofNat k))]], inner.lookup target = none := by
      simp [names.1]
    obtain ⟨r', gathers', added⟩ := gathers.statement_addPart (t := t) outside
      (reading.inside (by simp : ∀ inner ∈ [[]], ∀ word ∈ [source, "i"], inner.lookup word = none))
      (List.getElem?_eq_getElem inside) (fits _ (List.getElem_mem inside))
    rw [List.append_assoc, List.take_append_getElem] at gathers'
    refine ⟨r', gathers', fun steps enough => ?_⟩
    obtain ⟨more, rfl⟩ := Nat.exists_eq_add_of_le' enough
    exact inScope_statement (added (line + 1) 9 (more + 1))
  obtain ⟨r', gathers, ended⟩ := statement_counted
    (fun k r => Gathered s bindings target n asText (gathered ++ parts.take k) r) first small
    (fun k _ r gathers steps enough => bounds _ (gathers.keeps_counting k) steps (by omega)) passes
  rw [List.take_length] at gathers
  exact ⟨r', gathers, ended⟩

/-- An empty text or list is made, and all parts are added to it. -/
theorem statements_gather {asText' : Bool} {bound : Expr} (line width : Nat) (rest : List Stmt)
    (names : target ≠ "i" ∧ source ≠ "i" ∧ source ≠ target)
    (unbound : bindings.lookup target = none)
    (given : (s.holding bindings).scopes.lookup source = some v)
    (spells : s.store.Spells asText' v parts) (small : parts.length < 2 ^ 53)
    (fits : ∀ x ∈ parts, Fits asText x)
    (bounds : Bounds t ["i", target] (s.holding bindings) bound parts.length) :
    ∃ r, Gathered s bindings target s.store.size asText parts r ∧
      ∀ p line' column, ∀ steps, parts.length + 14 ≤ steps →
        statements t (.declare p target (emptyOf asText line' column) ::
            gatherLoop asText target source line width bound :: rest) (steps + 2)
          (s.holding bindings) = statements t rest steps r := by
  obtain ⟨u, store, grows, made, evaluated⟩ := expr_emptyOf t (s.holding bindings) asText
  have begun : Gathered s bindings target s.store.size asText []
      ({ s with store }.holding (Scope.bind target u bindings)) := ⟨u, store, grows, made, rfl⟩
  obtain ⟨r, gathers, ended⟩ :=
    statement_gatherLoop begun names given spells small fits bounds
  refine ⟨r, gathers, fun p line' column steps enough => ?_⟩
  obtain ⟨more, rfl⟩ := Nat.exists_eq_add_of_le' enough
  exact (statements_next (statement_declare (evaluated line' column _) unbound)).trans
    (statements_next (ended _ enough))

/-! ## A text for a text, a list for a list -/

/-- The functions that give what they are given begin with an empty text or list. -/
theorem statements_emptyLike {c : State} (unshadowed : c.scopes.target "typeOf" = "typeOf")
    (spells : c.store.Spells asText v parts) :
    ∃ u store, c.store.Extends store ∧ store.Made c.store.size asText u [] ∧
      ∀ line rest steps, statements t (emptyLike line ++ rest) (steps + 8)
        (c.holding [("items", v)]) =
          statements t rest (steps + 5)
            ({ c with store }.holding
              [("items", v), ("text", .bool asText), ("result", u)]) := by
  have visible : (c.holding [("items", v)]).scopes.target "typeOf" = "typeOf" := unshadowed
  have typed (line steps : Nat) : statement t (.declare ⟨line, 9⟩ "text"
      (.binary ⟨line, 30⟩ .equal (.call ⟨line, 16⟩ "typeOf" [.name ⟨line, 23⟩ "items"])
        (.typeName ⟨line, 33⟩ .string))) (steps + 7) (c.holding [("items", v)]) =
      .done .next (c.holding [("items", v), ("text", .bool asText)]) := by
    refine statement_declare (expr_binary
      (expr_typeOf visible (expr_name rfl) spells.typeOf) (expr_typeName .string) ?_) rfl
    cases asText <;> rfl
  let c' : State := c.holding [("items", v), ("text", .bool asText)]
  obtain ⟨empty, store, grows, made, evaluated⟩ := expr_emptyOf t c' false
  have declared (line steps : Nat) : statement t (.declare ⟨line + 1, 9⟩ "result"
      (emptyOf false (line + 1) 18)) (steps + 6) c' =
        .done .next ({ c with store }.holding
          [("items", v), ("text", .bool asText), ("result", empty)]) := by
    have given : expr t (emptyOf false (line + 1) 18) (steps + 5) c' = .done empty
        ({ c with store }.holding [("items", v), ("text", .bool asText)]) := evaluated _ _ _
    exact statement_declare given rfl
  cases asText with
  | false =>
      refine ⟨empty, store, grows.extended, made, fun line rest steps => ?_⟩
      exact (statements_next (typed line steps)).trans
        ((statements_next (declared line steps)).trans
          (statements_next (statement_branch_none (expr_name rfl) rfl)))
  | true =>
      refine ⟨.string "", store, grows.extended, store.made_text _ "", fun line rest steps => ?_⟩
      exact (statements_next (typed line steps)).trans
        ((statements_next (declared line steps)).trans
          (statements_next ((statement_branch_yes (expr_name rfl) rfl).trans
            (inScope_statement (statement_expr (expr_assign (expr_string "")))))))

/-- A function that begins in that way, and returns the text or list behind a loop, gives what the
loop has added to it. -/
theorem apply_emptyLike {f : Function} {loop : Stmt} {name : String} {p : Position} {last c : Nat}
    {added : List Value} (plain : Intrinsic.ofName? name = none) (known : t.find? name = some f)
    (params : f.params = ["items"]) (body : f.body = emptyLike line ++ [loop, returnResult last])
    (unshadowed : s.scopes.target "typeOf" = "typeOf") (spells : s.store.Spells asText v parts)
    (adds : ∀ (s' : State) u r, s'.scopes = s.scopes → s.store.Extends s'.store →
      Gathered s' [("items", v), ("text", .bool asText), ("result", u)] "result" s.store.size asText
        [] r →
      ∃ r', Gathered s' [("items", v), ("text", .bool asText), ("result", u)] "result"
          s.store.size asText added r' ∧
        ∀ steps, c ≤ steps → statement t loop steps r = .done .next r') :
    ∃ u store, s.store.Extends store ∧ store.Made s.store.size asText u added ∧
      ∀ steps, c + 10 ≤ steps → apply t p name [v] steps s = .done u { s with store } := by
  let inner : State := { s with calls := s.calls.push ⟨name, p⟩ }
  obtain ⟨u, store, extended, made, started⟩ :=
    statements_emptyLike (t := t) (c := inner) unshadowed spells
  obtain ⟨_, ⟨u', store', grows, made', rfl⟩, ended⟩ :=
    adds { inner with store } u _ rfl extended ⟨u, store, .refl _ _, made, rfl⟩
  refine ⟨u', store', extended.trans grows.extended, made', fun steps enough => ?_⟩
  obtain ⟨more, rfl⟩ : ∃ more, steps = more + c + 8 + 2 := ⟨steps - c - 10, by omega⟩
  have returned : statements t f.body (more + c + 8) (inner.holding [("items", v)]) =
      .done (.returned u') ({ inner with store := store' }.holding
        (Scope.bind "result" u' [("items", v), ("text", .bool asText), ("result", u)])) := by
    rw [body]
    exact (started line _ _).trans ((statements_next (ended _ (by omega))).trans
      (statements_returned (statement_return (expr_name rfl))))
  have arity : f.arity = [v].length := by
    rw [Function.arity, params]
    rfl
  have bound : bindParams p f.params [v] (inner.holding []) =
      .done () (inner.holding [("items", v)]) := by
    rw [params]
    rfl
  exact apply_user plain known arity bound returned

/-- Inside scopes that do not have it the result gets one more part, as `text` says. -/
theorem Gathered.statement_addLike {frames : List (List (String × Value))}
    (gathers : Gathered s bindings "result" n asText gathered r)
    (away : ∀ inner ∈ frames, inner.lookup "result" = none)
    (reading : Reading (r.inside frames) "items" "i" v parts i)
    (kind : (r.inside frames).scopes.lookup "text" = some (.bool asText))
    (there : parts[i]? = some x) (fits : Fits asText x) :
    ∃ r', Gathered s bindings "result" n asText (gathered ++ [x]) r' ∧
      ∀ line column steps, statement t (addLike line column) (steps + 9) (r.inside frames) =
        .done .next (r'.inside frames) := by
  obtain ⟨r', gathers', added⟩ := gathers.statement_addPart (t := t)
    (by simpa using away : ∀ inner ∈ [] :: frames, inner.lookup "result" = none)
    (reading.inside (by simp : ∀ inner ∈ [[]], ∀ word ∈ ["items", "i"], inner.lookup word = none))
    there fits
  refine ⟨r', gathers', fun line column steps => ?_⟩
  have once (line : Nat) : Run.inScope
      (statements t [addPart asText "result" "items" line (column + 4)] (steps + 8))
        (r.inside frames) = .done .next (r'.inside frames) :=
    inScope_statement (added line (column + 4) steps)
  cases asText with
  | true => exact (statement_branch_yes (expr_name kind) rfl).trans (once _)
  | false => exact (statement_branch_no (expr_name kind) rfl).trans (once _)

end Library

end Script
