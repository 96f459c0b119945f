/-
# Script.Proofs.Eval.Upkeep -- what the operations of the evaluator keep up

An `Upkeep` says which stores are sound, which values are fine in a store, and how stores may
grow, and that what the evaluator makes, reads and writes keeps to it.  It follows that the
operations on the state do: started where all values are fine, they end where all are fine,
their results included, in a store that has grown (`Upkeep.Safe`).

That whole runs do is the subject of `Script.Proofs.Eval.Course`.
-/
import Script.Proofs.Access.Results
import Script.Proofs.Eval.History
import Script.Proofs.Eval.Law
import Script.Proofs.Scopes

namespace Script

set_option autoImplicit false

/-- Whether the node is an assignment to an index. -/
def Expr.writes : Expr → Bool
  | .setIndex _ _ _ _ => true
  | _ => false

/-- All expressions that the statements evaluate themselves. -/
def Stmt.code (statements : List Stmt) : List Expr :=
  statements.flatMap fun st => st.operands.flatMap Expr.parts

namespace Stmt

theorem code_cons (st : Stmt) (rest : List Stmt) :
    code (st :: rest) = st.operands.flatMap Expr.parts ++ code rest :=
  List.flatMap_cons

theorem code_append (statements more : List Stmt) :
    code (statements ++ more) = code statements ++ code more :=
  List.flatMap_append

end Stmt

namespace Eval

/-- The expressions that the work is to evaluate, and all inside them. -/
def Work.code : Work → List Expr
  | .expr e => e.parts
  | .exprs es | .call _ _ es => Expr.itemParts es
  | .dictEntries _ entries _ => Expr.entryParts entries
  | .invoke _ _ (.user f) _ => f.expressions
  | .statement st => Stmt.code st.parts
  | .rounds condition step body =>
      (condition.toList ++ step.toList).flatMap Expr.parts ++ Stmt.code (Stmt.blockParts body)
  | .statements body => Stmt.code (Stmt.blockParts body)
  | _ => []

/-- Properties of stores and values that the operations of the evaluator keep up.  Without
`mayWrite` no function of the table assigns to an index. -/
structure Upkeep (t : FunctionTable) where
  sound : Store → Prop
  fine : Store → Value → Prop
  grows : Store → Store → Prop
  mayWrite : Prop
  grows_refl : ∀ s, grows s s
  grows_trans : ∀ {r s u}, grows r s → grows s u → grows r u
  fine_grows : ∀ {s s' v}, grows s s' → fine s v → fine s' v
  fine_plain : ∀ {s v}, v.Plain → fine s v
  fine_function : ∀ {s name}, t.names name = true → fine s (.function name)
  fine_held : ∀ {s target v}, sound s → fine s target → s.Held target v → fine s v
  newList : ∀ {s items}, sound s → (∀ v ∈ items.toList, fine s v) →
    sound (s.newList items).2 ∧ grows s (s.newList items).2 ∧
      fine (s.newList items).2 (s.newList items).1
  newDict : ∀ {s entries}, sound s → (∀ entry ∈ entries.toList, fine s entry.2) →
    sound (s.newDict entries).2 ∧ grows s (s.newDict entries).2 ∧
      fine (s.newDict entries).2 (s.newDict entries).1
  write : ∀ {s target index value place}, mayWrite → sound s → fine s target → fine s value →
    s.place target index = .ok place →
    sound (s.write place value) ∧ grows s (s.write place value)
  code : ∀ {name f}, t.find? name = some f → ∀ e ∈ f.expressions, e.writes = true → mayWrite

namespace Upkeep

variable {t : FunctionTable} (u : Upkeep t)

/-- The store is sound, and all values bound or at hand are fine in it. -/
structure Fine (values : List Value) (s : State) : Prop where
  sound : u.sound s.store
  bound : s.scopes.All (u.fine s.store)
  atHand : ∀ v ∈ values, u.fine s.store v

/-- Nothing in the code writes, unless writing is allowed. -/
def Permits (code : List Expr) : Prop :=
  ∀ e ∈ code, e.writes = true → u.mayWrite

/-- The work can begin in the state. -/
structure Ready (w : Work) (s : State) : Prop where
  fine : u.Fine w.given s
  code : u.Permits w.code

/-- At this ending, if it comes, the store has grown and all is fine. -/
def Safe (store : Store) (ending : Option Moment) : Prop :=
  ∀ m ∈ ending, u.grows store m.state.store ∧ u.Fine m.values m.state

variable {u} {α β : Type} {s s' : State} {given values : List Value} {v : Value}

theorem Fine.at (fine : u.Fine given s) (all : ∀ v ∈ values, u.fine s.store v) :
    u.Fine values s :=
  ⟨fine.sound, fine.bound, all⟩

theorem Fine.idle (fine : u.Fine given s) : u.Fine [] s :=
  fine.at (by simp)

theorem Fine.value (fine : u.Fine [v] s) : u.fine s.store v :=
  fine.atHand v (by simp)

theorem Fine.one (fine : u.Fine given s) (own : u.fine s.store v) : u.Fine [v] s :=
  fine.at (by simpa using own)

/-- Values stay fine while the store grows. -/
theorem Fine.later (fine : u.Fine values s) (grown : u.grows s.store s'.store) :
    ∀ v ∈ values, u.fine s'.store v :=
  fun v member => u.fine_grows grown (fine.atHand v member)

theorem Fine.opened (fine : u.Fine given s) : u.Fine given s.opened :=
  ⟨fine.sound, fine.bound.push, fine.atHand⟩

theorem Fine.entered (fine : u.Fine given s) (frame : Frame) : u.Fine given (s.entered frame) :=
  ⟨fine.sound, fine.bound.push, fine.atHand⟩

/-- Closing a scope takes away what is bound in it and nothing else. -/
theorem Fine.popped (fine : u.Fine values s) (store : s'.store = s.store)
    (scopes : s'.scopes = s.scopes.pop) : u.Fine values s' := by
  refine ⟨?_, ?_, ?_⟩
  · rw [store]
    exact fine.sound
  · rw [store, scopes]
    exact fine.bound.pop
  · rw [store]
    exact fine.atHand

@[simp] theorem permits_nil : u.Permits [] :=
  fun _ member => nomatch member

@[simp] theorem permits_cons {e : Expr} {code : List Expr} :
    u.Permits (e :: code) ↔ (e.writes = true → u.mayWrite) ∧ u.Permits code :=
  List.forall_mem_cons

@[simp] theorem permits_append {code more : List Expr} :
    u.Permits (code ++ more) ↔ u.Permits code ∧ u.Permits more :=
  List.forall_mem_append

/-- The code of a statement with one expression and no statements inside is that expression. -/
theorem permits_single {s : Stmt} {e : Expr} (own : s.operands = [e])
    (code : u.Permits (Stmt.code [s])) : u.Permits e.parts := by
  rwa [Stmt.code, List.flatMap_singleton, own, List.flatMap_singleton] at code

/-- What is called keeps to what the table keeps to. -/
theorem permits_callee {p : Position} {name : String} {args : List Value} {count : Nat}
    {f : Callee} {called : String} (found : t.callee called count = .ok f) :
    u.Permits (Work.invoke p name f args).code := by
  cases f with
  | intrinsic i => exact permits_nil
  | user f => exact u.code (FunctionTable.find?_of_callee found).2.1

/-! ## Operations -/

section

variable {operation : Store → Attempt α} {toValues : α → List Value}

theorem safe_none (store : Store) : u.Safe store none :=
  fun _ impossible => nomatch impossible

theorem safe_done {store : Store} {a : α} (grown : u.grows store s'.store)
    (fine : u.Fine (toValues a) s') : u.Safe store ((Outcome.done a s').moment? toValues) := by
  rintro m ⟨⟩
  exact ⟨grown, fine⟩

theorem safe_pure {a : α} (fine : u.Fine (toValues a) s) :
    u.Safe s.store (((pure a : Run α) s).moment? toValues) :=
  safe_done (u.grows_refl _) fine

theorem safe_failed (fine : u.Fine given s) (failure : Failure) :
    u.Safe s.store ((Outcome.failed failure s : Outcome α).moment? toValues) := by
  rintro m ⟨⟩
  exact ⟨u.grows_refl _, fine.idle⟩

theorem safe_fail (fine : u.Fine given s) (p : Position) (fault : Fault) :
    u.Safe s.store (((Run.fail p fault : Run α) s).moment? toValues) :=
  safe_failed fine _

theorem safe_attempt (fine : u.Fine given s) (p : Position)
    (gives : ∀ a, operation s.store = .ok a → ∀ v ∈ toValues a, u.fine s.store v) :
    u.Safe s.store ((Run.attempt p operation s).moment? toValues) := by
  unfold Run.attempt
  split
  · rename_i a given
    exact safe_done (u.grows_refl _) (fine.at (gives a given))
  · exact safe_failed fine _
  · exact safe_none _
  · exact safe_none _

/-- An operation whose result is no value. -/
theorem safe_query (fine : u.Fine given s) (p : Position) (operation : Store → Attempt α) :
    u.Safe s.store ((Run.attempt p operation s).moment? fun _ => []) :=
  safe_attempt fine p (by simp)

theorem safe_make {create : Store → Value × Store} (fine : u.Fine given s)
    (made : u.sound (create s.store).2 ∧ u.grows s.store (create s.store).2 ∧
      u.fine (create s.store).2 (create s.store).1) :
    u.Safe s.store ((Run.make create s).moment? fun v => [v]) := by
  obtain ⟨sound, grown, own⟩ := made
  refine safe_done grown ⟨sound, fine.bound.imp fun v => u.fine_grows grown, ?_⟩
  simpa using own

theorem safe_write {target index value : Value} {place : Place} (fine : u.Fine [value] s)
    (allowed : u.mayWrite) (known : u.fine s.store target)
    (found : s.store.place target index = .ok place) :
    u.Safe s.store ((Run.write place value s).moment? fun _ => [value]) := by
  obtain ⟨sound, grown⟩ := u.write allowed fine.sound known fine.value found
  exact safe_done grown ⟨sound, fine.bound.imp fun v => u.fine_grows grown, fine.later grown⟩

theorem safe_define (fine : u.Fine given s) (p : Position) (name : String)
    (own : u.fine s.store v) : u.Safe s.store ((Run.define p name v s).moment? fun _ => given) := by
  unfold Run.define
  split
  · rename_i scopes defined
    exact safe_done (u.grows_refl _) ⟨fine.sound, fine.bound.define own defined, fine.atHand⟩
  · exact safe_failed fine _

theorem safe_assign (fine : u.Fine given s) (name : String) (own : u.fine s.store v) :
    u.Safe s.store ((Run.assign name v s).moment? fun _ => given) :=
  safe_done (u.grows_refl _) ⟨fine.sound, fine.bound.assign name own, fine.atHand⟩

theorem safe_scopes (fine : u.Fine given s) :
    u.Safe s.store ((Run.scopes s).moment? fun _ => []) :=
  safe_done (u.grows_refl _) fine.idle

theorem safe_writeLine (fine : u.Fine given s) (line : String) :
    u.Safe s.store ((Run.writeLine line s).moment? fun _ => []) :=
  safe_done (u.grows_refl _) ⟨fine.sound, fine.bound, by simp⟩

theorem safe_readLine (fine : u.Fine given s) :
    u.Safe s.store ((Run.readLine s).moment? fun _ => []) :=
  safe_done (u.grows_refl _) ⟨fine.sound, fine.bound, by simp⟩

end

/-- A sequence ends safely when both its parts do. -/
theorem safe_bind {x : Run α} {f : α → Run β} {toValues : α → List Value}
    {toValues' : β → List Value} (first : u.Safe s.store ((x s).moment? toValues))
    (second : ∀ a s', x s = .done a s' → u.grows s.store s'.store → u.Fine (toValues a) s' →
      u.Safe s'.store ((f a s').moment? toValues')) :
    u.Safe s.store (((x >>= f) s).moment? toValues') := by
  change u.Safe s.store ((Run.bind x f s).moment? toValues')
  unfold Run.bind
  cases done : x s with
  | done a s' =>
      rw [done] at first
      obtain ⟨grown, fine⟩ := first _ rfl
      intro m ended
      obtain ⟨further, good⟩ := second a s' done grown fine m ended
      exact ⟨u.grows_trans grown further, good⟩
  | failed failure s' =>
      rw [done] at first
      rintro m ⟨⟩
      exact first _ rfl
  | aborted => exact safe_none _
  | exhausted => exact safe_none _

theorem safe_name (fine : u.Fine given s) (p : Position) (word : String) :
    u.Safe s.store ((name t p word s).moment? fun v => [v]) := by
  refine safe_bind (safe_scopes fine) fun scopes s' done _ fine => ?_
  cases done
  cases found : s.scopes.lookup word with
  | some value =>
      dsimp only
      exact safe_pure (fine.one (fine.bound.lookup found))
  | none =>
      dsimp only
      split
      · rename_i known
        exact safe_pure (fine.one (u.fine_function known))
      · exact safe_fail fine _ _

theorem safe_entryKey (fine : u.Fine given s) (p : Position) (key : EntryKey) :
    u.Safe s.store ((entryKey p key s).moment? fun _ => []) := by
  cases key with
  | literal text => exact safe_pure fine.idle
  | name word =>
      refine safe_bind (safe_scopes fine) fun scopes s' _ _ fine => ?_
      cases scopes.lookup word with
      | none => exact safe_pure fine
      | some value =>
          cases value with
          | string text => exact safe_pure fine
          | _ =>
              refine safe_bind (safe_query fine p _) ?_
              intro got s' _ _ fine
              exact safe_fail fine _ _

theorem safe_callbackName (fine : u.Fine given s) (p : Position) (callback : Value) :
    u.Safe s.store ((callbackName p callback s).moment? fun _ => []) := by
  unfold callbackName
  split
  · exact safe_pure fine.idle
  · exact safe_pure fine.idle
  · exact safe_fail fine _ _

/-- Finding out which function a callback stands for changes nothing. -/
theorem callbackName_done {p : Position} {callback : Value} {name : String}
    (done : callbackName p callback s = .done name s') : s' = s := by
  unfold callbackName at done
  split at done <;> cases done <;> rfl

theorem safe_bindParams (p : Position) :
    ∀ (params : List String) (args : List Value) {s : State}, u.Fine args s →
      u.Safe s.store ((bindParams p params args s).moment? fun _ => [])
  | [], _, s, fine => safe_pure fine.idle
  | _ :: _, [], s, fine => safe_pure fine.idle
  | param :: params, value :: values, s, fine => by
      obtain ⟨first, others⟩ := List.forall_mem_cons.1 fine.atHand
      refine safe_bind (safe_define (fine.at others) p param first) ?_
      intro _ s' _ _ fine'
      exact safe_bindParams p params values fine'

/-- The values that a product consists of. -/
def productValues : Product → List Value
  | .value v => [v]
  | .items items => items.toList

theorem safe_realize {product : Product} (fine : u.Fine (productValues product) s) :
    u.Safe s.store ((Run.make (·.realize product) s).moment? fun v => [v]) := by
  cases product with
  | value v => exact safe_make fine ⟨fine.sound, u.grows_refl _, fine.value⟩
  | items items => exact safe_make fine (u.newList fine.sound fine.atHand)

theorem safe_binary {v w : Value} (fine : u.Fine given s) (left : u.fine s.store v)
    (right : u.fine s.store w) (p : Position) (op : BinaryOp) :
    u.Safe s.store ((Run.attempt p (·.binary op v w) s).moment? productValues) := by
  refine safe_attempt fine p fun product computed => ?_
  rcases Store.binary_result computed with ⟨r, rfl, plain⟩ | ⟨a, b, rfl, rfl, rfl⟩
  · simpa [productValues] using u.fine_plain plain
  · intro item member
    rw [productValues, Array.toList_append, List.mem_append] at member
    rcases member with member | member
    · exact u.fine_held fine.sound left (.inl ⟨a, rfl, member⟩)
    · exact u.fine_held fine.sound right (.inl ⟨b, rfl, member⟩)

theorem safe_indexGet {v i : Value} (fine : u.Fine given s) (target : u.fine s.store v)
    (p : Position) :
    u.Safe s.store ((Run.attempt p (·.indexGet v i) s).moment? fun w => [w]) := by
  refine safe_attempt fine p fun w read => List.forall_mem_singleton.2 ?_
  rcases Store.indexGet_result read with plain | held
  · exact u.fine_plain plain
  · exact u.fine_held fine.sound target held

/-- Finding the place leaves the state alone, so the value is written to it there. -/
theorem safe_setIndex {v i w : Value} (fine : u.Fine [w] s) (allowed : u.mayWrite)
    (target : u.fine s.store v) (p : Position) :
    u.Safe s.store (((do
      let place ← Run.attempt p (·.place v i)
      Run.write place w
      return w : Run Value) s).moment? fun w => [w]) := by
  have placed : u.Safe s.store ((Run.attempt p (·.place v i) s).moment? fun _ => [w]) :=
    safe_attempt fine p fun _ _ => fine.atHand
  refine safe_bind placed ?_
  intro place s' done _ fine'
  obtain ⟨rfl, found⟩ := Run.attempt_done done
  exact safe_bind (safe_write fine' allowed target found) fun _ _ _ _ fine => safe_pure fine

theorem safe_intrinsic {p : Position} {i : Intrinsic} {args : List Value} (other : i ≠ .map)
    (steps : Nat) (fine : u.Fine args s) :
    u.Safe s.store ((Eval.intrinsic t p i args (steps + 1) s).moment? fun v => [v]) := by
  have plain : ∀ {α : Type} {operation : Store → Attempt α} {make : α → Value},
      (∀ a, (make a).Plain) → u.Safe s.store (((do
        let a ← Run.attempt p operation
        return make a : Run Value) s).moment? fun v => [v]) := by
    intro α operation make plain
    refine safe_bind (safe_query fine p _) ?_
    exact fun a s' _ _ fine => safe_pure (fine.one (u.fine_plain (plain a)))
  rw [Eval.intrinsic.eq_def]
  dsimp only
  split
  · refine safe_bind (safe_writeLine fine _) fun _ s₁ _ _ fine₁ => ?_
    exact safe_pure (fine₁.one (u.fine_plain .null))
  · refine safe_bind (safe_query fine p _) ?_
    intro line s₁ _ _ fine₁
    refine safe_bind (safe_writeLine fine₁ line) fun _ s₂ _ _ fine₂ => ?_
    exact safe_pure (fine₂.one (u.fine_plain .null))
  · refine safe_bind (safe_readLine fine) fun line s₁ _ _ fine₁ => ?_
    exact safe_pure (fine₁.one (u.fine_plain (.string line)))
  · exact plain fun n => .number _
  · exact absurd rfl other
  · exact plain fun x => .number x
  · exact plain fun text => .string text
  · exact plain fun tag => .typeName tag
  · exact safe_fail fine p _

end Upkeep

end Eval

end Script
