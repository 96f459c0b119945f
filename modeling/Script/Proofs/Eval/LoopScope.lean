/-
# Script.Proofs.Eval.LoopScope -- the scope of a loop is that of a block

A loop opens a scope for what it starts with, and closes it when it is done.  A block around a loop
that starts with nothing has the same two scopes and an empty third one between them and the body.
The names of the two are together those of the one (`Scopes.Merged`), and that is kept by whatever
runs in them: names are found alike, overwritten alike, and new ones bound in the innermost of
them.  So at equal steps the two forms are the same computation (`loop_eq_block`).

The main statement is `loop_as_block`, with what it means for an assignment in the header.
-/
import Script.Proofs.Eval.Beside
import Script.Proofs.Eval.MoreSteps
import Script.Proofs.Eval.Shadowing
import Script.Proofs.Eval.Task

namespace Script

set_option autoImplicit false

/-! ## One scope in place of two -/

namespace Scopes

variable {word : String} {value : Value}

/-- The same scopes, except that under the `i` innermost there is one scope on the left in place of
two on the right, with the same names and values. -/
inductive MergedAt : Nat → List Scope → List Scope → Prop
  | here {one inner outer : Scope} {rest : List Scope}
      (both : ∀ word, one.find? word = (inner.find? word).or (outer.find? word)) :
      MergedAt 0 (one :: rest) (inner :: outer :: rest)
  | under {i : Nat} {scopes scopes' : List Scope} (scope : Scope)
      (merged : MergedAt i scopes scopes') : MergedAt (i + 1) (scope :: scopes) (scope :: scopes')

/-- The scopes with one in place of two under the `i` innermost. -/
def Merged (i : Nat) (r r' : Scopes) : Prop :=
  MergedAt i r.toList r'.toList

namespace MergedAt

variable {i : Nat} {scopes scopes' : List Scope}

theorem contains {one inner outer : Scope}
    (both : ∀ word, one.find? word = (inner.find? word).or (outer.find? word)) (word : String) :
    one.contains word = (inner.contains word || outer.contains word) := by
  unfold Scope.contains
  rw [both word, Option.isSome_or]

theorem lookup (merged : MergedAt i scopes scopes') (word : String) :
    scopes.findSome? (·.find? word) = scopes'.findSome? (·.find? word) := by
  induction merged with
  | here both =>
      simp only [List.findSome?_cons, both word]
      cases Scope.find? _ word <;> rfl
  | under scope merged ih => simp only [List.findSome?_cons, ih]

/-- A name that either scope of the two has is bound in the one as well, to the new value. -/
theorem set_here {one inner outer : Scope} {rest : List Scope}
    (both : ∀ word, one.find? word = (inner.find? word).or (outer.find? word)) :
    MergedAt 0 (one.set word value :: rest) (inner.set word value :: outer :: rest) := by
  refine .here fun other => ?_
  rw [Scope.find?_set, Scope.find?_set, both other]
  split <;> rfl

theorem overwrite? (merged : MergedAt i scopes scopes') (word : String) (value : Value) :
    Option.Rel (MergedAt i) (Scopes.overwrite? word value scopes)
      (Scopes.overwrite? word value scopes') := by
  induction merged with
  | @here one inner outer rest both =>
      have own := contains both word
      simp only [Scopes.overwrite?]
      cases first : inner.contains word with
      | true =>
          rw [first, Bool.true_or] at own
          rw [if_pos own, if_pos rfl]
          exact .some (set_here both)
      | false =>
          rw [first, Bool.false_or] at own
          rw [own, if_neg Bool.false_ne_true]
          cases outer.contains word with
          | true =>
              rw [if_pos rfl, if_pos rfl]
              refine .some (.here fun other => ?_)
              have none : inner.find? word = none := by simpa [Scope.contains] using first
              rw [Scope.find?_set, Scope.find?_set, both other]
              split
              · rename_i same
                rw [same, none]
                rfl
              · rfl
          | false =>
              rw [if_neg Bool.false_ne_true, if_neg Bool.false_ne_true]
              cases Scopes.overwrite? word value rest with
              | none => exact .none
              | some rest => exact .some (.here both)
  | under scope merged ih =>
      simp only [Scopes.overwrite?]
      split
      · exact .some (.under _ merged)
      · generalize Scopes.overwrite? word value _ = o at ih ⊢
        generalize Scopes.overwrite? word value _ = o' at ih ⊢
        cases ih with
        | none => exact .none
        | some merged => exact .some (.under scope merged)

/-- A name that is new is bound in the innermost scope. -/
theorem set_inner {scope scope' : Scope}
    (merged : MergedAt i (scope :: scopes) (scope' :: scopes')) :
    MergedAt i (scope.set word value :: scopes) (scope'.set word value :: scopes') := by
  cases merged with
  | here both => exact set_here both
  | under _ merged => exact .under _ merged

end MergedAt

/-- A scope that has just been opened adds nothing to the one around it. -/
theorem merged_push (r : Scopes) : r.Merged 0 r.push :=
  .here fun _ => rfl

namespace Merged

variable {i : Nat} {r r' : Scopes}

theorem lookup (merged : r.Merged i r') (word : String) : r.lookup word = r'.lookup word :=
  MergedAt.lookup merged word

theorem assign (merged : r.Merged i r') (word : String) (value : Value) :
    (r.assign word value).Merged i (r'.assign word value) := by
  have written := MergedAt.overwrite? merged word value
  unfold Merged
  rw [toList_assign, toList_assign]
  generalize Scopes.overwrite? word value r.toList = o at written ⊢
  generalize Scopes.overwrite? word value r'.toList = o' at written ⊢
  cases written with
  | none => exact MergedAt.set_inner merged
  | some merged => exact merged

theorem push (merged : r.Merged i r') : r.push.Merged (i + 1) r'.push :=
  .under .empty merged

theorem inner (merged : r.Merged (i + 1) r') : r.inner = r'.inner := by
  obtain ⟨inner, outer⟩ := r
  obtain ⟨inner', outer'⟩ := r'
  cases merged
  rfl

theorem pop (merged : r.Merged (i + 1) r') : r.pop.Merged i r'.pop := by
  obtain ⟨inner, outer⟩ := r
  obtain ⟨inner', outer'⟩ := r'
  cases merged with
  | under _ merged =>
      unfold Merged
      have several : outer ≠ [] ∧ outer' ≠ [] := by
        cases merged <;> exact ⟨List.cons_ne_nil _ _, List.cons_ne_nil _ _⟩
      rwa [toList_pop several.1 rfl, toList_pop several.2 rfl]

/-- Closing one scope on the left and two on the right leaves the same scopes. -/
theorem closed (merged : r.Merged 0 r') (several : r.outer ≠ []) : r.pop = r'.pop.pop := by
  obtain ⟨inner, outer⟩ := r
  obtain ⟨inner', outer'⟩ := r'
  cases merged
  cases outer with
  | nil => exact absurd rfl several
  | cons scope rest => rfl

end Merged

end Scopes

namespace Eval

/-! ## What runs in the scopes -/

theorem merged_define (p : Position) (word : String) (value : Value) (i : Nat) :
    Run.KeepBeside .same (Scopes.Merged (i + 1)) (Run.define p word value)
      (Run.define p word value) := by
  refine Run.beside_define (fun merged => by rw [merged.inner]) id fun merged _ => ?_
  exact Scopes.MergedAt.set_inner merged

theorem merged_bindParams (p : Position) (i : Nat) :
    ∀ (params : List String) (args : List Value),
      Run.KeepBeside .same (Scopes.Merged (i + 1)) (bindParams p params args)
        (bindParams p params args)
  | [], _ | _ :: _, [] => Run.beside_pure id
  | param :: params, value :: values =>
      (merged_define p param value i).bind fun _ => merged_bindParams p i params values

/-- The evaluator keeps scopes merged.  What runs inside a further scope may bind names there. -/
def merged (t : FunctionTable) : Convoy t t where
  tandem s := beside .same Scopes.Merged (.all s) (· = ·) True
    (fun _ _ => keep_name (fun merged => merged.lookup _) fun _ _ => rfl)
    (fun _ _ _ => keep_entryKey fun merged word _ => merged.lookup word)
    (fun value _ _ _ _ merged => merged.assign _ value)
    (by
      intro α p callee args x y _ passed i r r' merged
      have target : r.target callee = r'.target callee := by
        rw [Scopes.target, Scopes.target, merged.lookup]
      rw [target]
      cases found : t.callee (r'.target callee) args.length with
      | ok f => exact passed found (.refl (fun _ => rfl) trivial f) i
      | error fault => exact Run.beside_fail id p fault)
    (by
      intro α p name count x y _ _ passed i
      cases found : t.callee name count with
      | ok f => exact passed found (.refl (fun _ => rfl) trivial f) i
      | error fault => exact Run.beside_fail id p fault)
  code _ _ x y := ∀ i, Run.KeepBeside .same (Scopes.Merged (i + 1)) x y
  code_of_term kept i := kept (i + 1)
  code_bind first second i := (first i).bind fun a => second a i
  code_define word value _ := merged_define _ word value
  term_truthy v _ := Run.beside_truthy v
  term_inScope body i :=
    Run.beside_inScope Scopes.Merged.push Scopes.Merged.pop Scopes.Merged.pop (body i)

theorem merged_kept (t : FunctionTable) : ∀ n, (merged t).Kept n n
  | 0 => .zero fun none _ => none rfl ▸ Run.beside_exhausted
  | n + 1 => by
      have kept := merged_kept t n
      refine kept.succ fun s => ?_
      rintro p name f _ args - - - rfl i
      have body := kept.statements f.sites_covers (.refl f.body) i
      have value : Run.KeepBeside .same (Scopes.Merged (i + 1))
          (Eval.statements t f.body n >>= fun flow => pure (result flow))
          (Eval.statements t f.body n >>= fun flow => pure (result flow)) :=
        body.bind fun _ => Run.beside_pure id
      have inside := (merged_bindParams p i f.params args).bind fun _ => value
      exact Run.beside_inCall Scopes.Merged.push Scopes.Merged.pop Scopes.Merged.pop inside

variable {α : Type} {t : FunctionTable} {n : Nat}

/-! ## The two forms -/

/-- What a loop starts with. -/
def opening (t : FunctionTable) (start : LoopStart) (steps : Nat) : Run Unit :=
  match start with
  | .nothing => pure ()
  | .declare p word value => do
      let value ← Eval.expr t value steps
      Run.define p word value
  | .expr e => do
      let _ ← Eval.expr t e steps

theorem keeps_opening (t : FunctionTable) (start : LoopStart) (steps : Nat) :
    (opening t start steps).Keeps Scopes.Grown := by
  have kept : ∀ e, (Eval.expr t e steps).Keeps Scopes.Grown := fun e =>
    ((discipline t).kept steps).expr (Sites.anywhere_covers e)
  cases start with
  | nothing => exact (Run.quiet_pure ()).keeps Scopes.Grown.refl
  | declare p word value => exact (kept value).bind Scopes.Grown.trans (Run.keeps_define p word)
  | expr e =>
      exact (kept e).bind Scopes.Grown.trans fun _ => (Run.quiet_pure ()).keeps Scopes.Grown.refl

theorem keeps_rounds (t : FunctionTable) (condition step : Option Expr) (body : List Stmt)
    (n : Nat) : (Eval.rounds t condition step body n).Keeps Scopes.Grown :=
  ((discipline t).kept n).rounds (s := .anywhere) (fun e _ => Sites.anywhere_covers e)
    (fun e _ => Sites.anywhere_covers e) (Sites.anywhere_coversBlock body)

theorem ends_opening (t : FunctionTable) (start : LoopStart) {n m : Nat} (more : n ≤ m) :
    (opening t start n).EndsAs (opening t start m) := by
  have ends : ∀ e, (Eval.expr t e n).EndsAs (Eval.expr t e m) := fun e =>
    (more_steps t more).expr (Sites.anywhere_covers e)
  cases start with
  | nothing => exact .refl _
  | declare p word value => exact (ends value).bind fun _ => .refl _
  | expr e => exact (ends e).bind fun _ => .refl _

theorem ends_rounds (t : FunctionTable) (condition step : Option Expr) (body : List Stmt)
    {n m : Nat} (more : n ≤ m) :
    (Eval.rounds t condition step body n).EndsAs (Eval.rounds t condition step body m) :=
  (more_steps t more).rounds (s := .anywhere) (fun e _ => Sites.anywhere_covers e)
    (fun e _ => Sites.anywhere_covers e) (Sites.anywhere_coversBlock body) (.refl body)

theorem statement_loop (t : FunctionTable) (p : Position) (start : LoopStart)
    (condition step : Option Expr) (body : List Stmt) (n : Nat) :
    Eval.statement t (.loop p start condition step body) (n + 1) =
      Run.inScope (opening t start n >>= fun _ => Eval.rounds t condition step body n) := by
  cases start <;> simp only [Eval.statement, opening, bind_assoc, pure_bind]

/-- Handing on how a statement ends does nothing. -/
theorem bind_next (x : Run Flow) {f : Flow → Run Flow} (same : ∀ flow, f flow = pure flow) :
    x >>= f = x :=
  (bind_congr same).trans (bind_pure x)

/-- A block of what a loop starts with and the loop without it. -/
theorem statement_block {start : LoopStart} {header : Stmt}
    (begins : start.statement? = some header) (t : FunctionTable) (q r : Position)
    (condition step : Option Expr) (body : List Stmt) (n : Nat) :
    Eval.statement t (.block q [header, .loop r .nothing condition step body]) (n + 4) =
      Run.inScope (opening t start (n + 1) >>= fun _ =>
        Run.inScope (Eval.rounds t condition step body n)) := by
  cases start with
  | nothing => cases begins
  | declare p word value =>
      cases begins
      simp only [Eval.statement, Eval.statements, opening, bind_assoc, pure_bind]
      refine congrArg Run.inScope (bind_congr fun v => bind_congr fun _ => ?_)
      exact bind_next _ fun flow => by cases flow <;> rfl
  | expr e =>
      cases begins
      simp only [Eval.statement, Eval.statements, opening, bind_assoc, pure_bind]
      refine congrArg Run.inScope (bind_congr fun v => ?_)
      exact bind_next _ fun flow => by cases flow <;> rfl

/-- A further scope around what runs inside others is not seen when the next is closed too. -/
theorem inScope_closed {y : Run α} (keeps : y.Keeps Scopes.Grown)
    (kept : Run.KeepBeside .same (Scopes.Merged 0) y y) {s : State}
    (several : s.scopes.outer ≠ []) :
    (Run.inScope y s).mapState (fun s => { s with scopes := s.scopes.pop }) =
      (y s).mapState fun s => { s with scopes := s.scopes.pop } := by
  have outer : ∀ s', (y s).state? = some s' → s'.scopes.outer ≠ [] := by
    intro s' ended none
    have same := (keeps s s' ended).2.outer
    rw [none] at same
    exact several (List.map_eq_nil_iff.1 same.symm)
  obtain ⟨scopes, calls, store, console⟩ := s
  have beside := kept ⟨scopes, calls, store, console⟩ ⟨scopes.push, calls, store, console⟩
    ⟨scopes.merged_push, rfl⟩
  unfold Run.inScope
  generalize y ⟨scopes, calls, store, console⟩ = o at beside outer ⊢
  generalize y ⟨scopes.push, calls, store, console⟩ = o' at beside ⊢
  cases beside with
  | done a states =>
      obtain @⟨r, r', _, _, store, console, merged, ⟨⟩⟩ := states
      simp only [Outcome.mapState, merged.closed (outer _ rfl)]
  | failed failures states =>
      obtain @⟨r, r', _, _, store, console, merged, ⟨⟩⟩ := states
      cases failures
      simp only [Outcome.mapState, merged.closed (outer _ rfl)]
  | aborted => rfl
  | exhausted => rfl

theorem inScope_inScope {x : Run Unit} {y : Run α} (opens : x.Keeps Scopes.Grown)
    (keeps : y.Keeps Scopes.Grown) (kept : Run.KeepBeside .same (Scopes.Merged 0) y y) :
    Run.inScope (x >>= fun _ => Run.inScope y) = Run.inScope (x >>= fun _ => y) := by
  funext s
  change (Run.bind x (fun _ => Run.inScope y) s.opened).mapState _ =
    (Run.bind x (fun _ => y) s.opened).mapState _
  unfold Run.bind
  cases done : x s.opened with
  | done a s' =>
      refine inScope_closed keeps kept fun none => ?_
      have same := (opens s.opened s' (by rw [done]; rfl)).2.outer
      rw [none] at same
      cases same
  | failed failure s' => rfl
  | aborted => rfl
  | exhausted => rfl

/-- At equal steps for each of their parts the two forms are one computation. -/
theorem loop_eq_block (t : FunctionTable) (start : LoopStart) (condition step : Option Expr)
    (body : List Stmt) (n m : Nat) :
    Run.inScope (opening t start n >>= fun _ =>
        Run.inScope (Eval.rounds t condition step body m)) =
      Run.inScope (opening t start n >>= fun _ => Eval.rounds t condition step body m) := by
  refine inScope_inScope (keeps_opening t start n) (keeps_rounds t condition step body m) ?_
  exact (merged_kept t m).rounds (s := .anywhere) (fun e _ => Sites.anywhere_covers e)
    (fun e _ => Sites.anywhere_covers e) (Sites.anywhere_coversBlock body) (.refl body) 0

/-- The statement comes to the outcome if it may make enough steps. -/
def Finishes (t : FunctionTable) (st : Stmt) (s : State) (o : Outcome Flow) : Prop :=
  o ≠ .exhausted ∧ ∃ steps, Eval.statement t st steps s = o

theorem ends_statement (t : FunctionTable) (st : Stmt) {n m : Nat} (more : n ≤ m) :
    (Eval.statement t st n).EndsAs (Eval.statement t st m) :=
  (more_steps t more).statement (Sites.anywhere_coversStmt st) (.refl st)

theorem finishes_of_endsAs {st st' : Stmt} {more : Nat → Nat} {s : State} {o : Outcome Flow}
    (ends : ∀ n, (Eval.statement t st n).EndsAs (Eval.statement t st' (more n)))
    (finishes : Finishes t st s o) : Finishes t st' s o := by
  obtain ⟨ended, n, rfl⟩ := finishes
  exact ⟨ended, more n, ends n s ended⟩

section

variable {start : LoopStart} {header : Stmt} (begins : start.statement? = some header)
  (p q r : Position) (condition step : Option Expr) (body : List Stmt)

include begins

theorem loop_endsAs_block (n : Nat) :
    (Eval.statement t (.loop p start condition step body) n).EndsAs
      (Eval.statement t (.block q [header, .loop r .nothing condition step body]) (n + 4)) := by
  refine (ends_statement t _ (Nat.le_succ n)).trans ?_
  rw [statement_loop, statement_block begins, loop_eq_block]
  exact ((ends_opening t start (Nat.le_succ n)).bind fun _ => .refl _).inScope

theorem block_endsAs_loop (n : Nat) :
    (Eval.statement t (.block q [header, .loop r .nothing condition step body]) n).EndsAs
      (Eval.statement t (.loop p start condition step body) (n + 2)) := by
  refine (ends_statement t _ (Nat.le_add_right n 4)).trans ?_
  rw [statement_loop, statement_block begins, loop_eq_block]
  have rounds := ends_rounds t condition step body (Nat.le_succ n)
  exact ((Run.EndsAs.refl _).bind fun _ => rounds).inScope

end

/-! ## The rounds -/

/-- The task comes to a round of a loop, which begins in the state with so many steps left. -/
inductive Task.BeginsRound (t : FunctionTable) (task : Task) (condition step : Option Expr)
    (body : List Stmt) : Nat → State → Prop
  | first {n : Nat} {s : State} (part : task.Part t ⟨n, .rounds condition step body, s⟩) :
      BeginsRound t task condition step body n s
  | next {n m : Nat} {s s' : State} (before : BeginsRound t task condition step body n s)
      (part : Task.Part t ⟨n, .rounds condition step body, s⟩
        ⟨m, .rounds condition step body, s'⟩) : BeginsRound t task condition step body m s'

section

variable {condition step : Option Expr} {body : List Stmt} {s s' : State} {m : Nat}

theorem unshadowed_of_expr {e : Expr} {v : Value} (done : Eval.expr t e n s = .done v s') :
    s.scopes.Unshadowed s'.scopes :=
  (expr_unshadowed t e n s s' (by rw [done]; rfl)).2

/-- The body of a loop runs in a scope of its own, so a round leaves to the next one the names it
found, and those that its expressions bound. -/
theorem unshadowed_roundParts : ∀ part ∈ Work.roundParts t n condition step body s,
    part.1 = .rounds condition step body → s.scopes.Unshadowed part.2.scopes := by
  simp only [Work.roundParts, List.forall_mem_cons, Outcome.forall_andThen]
  refine ⟨by rintro ⟨⟩, fun flow mid done => ?_⟩
  have closed : s.scopes.Unshadowed mid.scopes := by
    have inside := ((discipline t).kept n).statements (Sites.anywhere_coversBlock body)
    have keeps := Run.keeps_inScope Scopes.Grown.pop inside
    exact (keeps s mid (by rw [done]; rfl)).2.unshadowed
  cases flow with
  | returned value => exact List.forall_mem_nil _
  | next =>
      cases step with
      | none => exact List.forall_mem_singleton.2 fun _ => closed
      | some e =>
          simp only [List.forall_mem_cons, Outcome.forall_andThen]
          refine ⟨by rintro ⟨⟩, fun v last done => ⟨fun _ => ?_, List.forall_mem_nil _⟩⟩
          exact closed.trans (unshadowed_of_expr done)

theorem unshadowed_of_next (part : Task.Part t ⟨n, .rounds condition step body, s⟩
    ⟨m, .rounds condition step body, s'⟩) : s.scopes.Unshadowed s'.scopes := by
  obtain ⟨member⟩ := part
  cases condition with
  | none => exact unshadowed_roundParts _ member rfl
  | some e =>
      have all : ∀ part ∈ (Work.rounds (some e) step body).parts t m s,
          part.1 = .rounds (some e) step body → s.scopes.Unshadowed part.2.scopes := by
        simp only [Work.parts, List.forall_mem_cons, Outcome.forall_andThen]
        refine ⟨by rintro ⟨⟩, fun v mid done => ?_⟩
        split
        · exact fun part inside same =>
            (unshadowed_of_expr done).trans (unshadowed_roundParts part inside same)
        · exact List.forall_mem_nil _
      exact all _ member rfl

variable {p : Position} {e : Expr}

/-- The first round of a loop that starts with an expression begins where that ends. -/
theorem first_round (part : Task.Part t ⟨n, .statement (.loop p (.expr e) condition step body), s⟩
    ⟨m, .rounds condition step body, s'⟩) : ∃ v, Eval.expr t e m s.opened = .done v s' := by
  obtain ⟨member⟩ := part
  rcases List.mem_cons.1 member with first | later
  · cases first
  · cases done : Eval.expr t e m s.opened with
    | done v mid =>
        rw [done] at later
        cases List.mem_singleton.1 later
        exact ⟨v, rfl⟩
    | failed failure mid => rw [done] at later; cases later
    | aborted => rw [done] at later; cases later
    | exhausted => rw [done] at later; cases later

/-- Each round begins with the names that the header left, and with no name of an outer scope
besides. -/
theorem unshadowed_of_begins
    (round : Task.BeginsRound t ⟨n, .statement (.loop p (.expr e) condition step body), s⟩ condition
      step body m s') :
    ∃ k v s₁, Eval.expr t e k s.opened = .done v s₁ ∧ s₁.scopes.Unshadowed s'.scopes := by
  induction round with
  | first part =>
      obtain ⟨v, done⟩ := first_round part
      exact ⟨_, v, _, done, .refl _⟩
  | next before part ih =>
      obtain ⟨k, v, s₁, done, earlier⟩ := ih
      exact ⟨k, v, s₁, done, earlier.trans (unshadowed_of_next part)⟩

variable {q : Position} {word : String} {v : Value}

/-- After an assignment in a new scope the name has the value, and the scopes around have the names
they had. -/
theorem assigned (done : Eval.expr t (.assign q word e) n s.opened = .done v s') :
    s'.scopes.lookup word = some v ∧ s.scopes.push.Unshadowed s'.scopes := by
  refine ⟨?_, unshadowed_of_expr done⟩
  cases n with
  | zero => cases done
  | succ n =>
      simp only [Eval.expr] at done
      change Run.bind (Eval.expr t e n) _ s.opened = _ at done
      unfold Run.bind at done
      cases value : Eval.expr t e n s.opened with
      | done w mid =>
          rw [value] at done
          cases done
          exact mid.scopes.lookup_assign word _
      | failed failure mid => rw [value] at done; cases done
      | aborted => rw [value] at done; cases done
      | exhausted => rw [value] at done; cases done

/-- A new scope never gets a name that an outer one has. -/
theorem not_mem_of_bound {r r' : Scopes} (bound : r.has word = true)
    (unshadowed : r.push.Unshadowed r') : word ∉ r'.inner.names := by
  intro own
  obtain ⟨names, outside, has⟩ := Scopes.has_iff.1 bound
  rcases unshadowed.new word own with known | away
  · change word ∈ Scope.empty.names at known
    rw [Scope.names_empty] at known
    cases known
  · exact away names outside has

/-- The name of a variable outside is assigned there, whatever scope has it. -/
theorem assigned_outside (bound : s.scopes.has word = true)
    (done : Eval.expr t (.assign q word e) n s.opened = .done v s') :
    s.scopes.Rebound s'.scopes.pop ∧ s'.scopes.pop.lookup word = some v := by
  obtain ⟨found, unshadowed⟩ := assigned done
  have several : s'.scopes.outer ≠ [] := by
    intro none
    have same := unshadowed.grown.outer
    rw [none] at same
    cases same
  refine ⟨unshadowed.grown.pop, ?_⟩
  rw [Scopes.lookup_outer (not_mem_of_bound bound unshadowed)] at found
  rw [Scopes.lookup, Scopes.toList_pop several rfl]
  exact found

/-- A new name is bound in the new scope. -/
theorem assigned_inside (free : s.scopes.has word = false)
    (done : Eval.expr t (.assign q word e) n s.opened = .done v s') :
    s'.scopes.inner.find? word = some v := by
  obtain ⟨found, unshadowed⟩ := assigned done
  rwa [Scopes.lookup_inner] at found
  rw [unshadowed.grown.outer]
  intro names outside has
  rw [Scopes.has_iff.2 ⟨names, outside, has⟩] at free
  cases free

theorem keeps_loop (t : FunctionTable) (p : Position) (start : LoopStart)
    (condition step : Option Expr) (body : List Stmt) (n : Nat) :
    (Eval.statement t (.loop p start condition step body) n).Keeps Scopes.Rebound := by
  cases n with
  | zero => exact fun _ _ ended => nomatch ended
  | succ n =>
      rw [statement_loop]
      refine Run.keeps_inScope Scopes.Grown.pop ?_
      exact (keeps_opening t start n).bind Scopes.Grown.trans fun _ =>
        keeps_rounds t condition step body n

end

/-- **The scope of a loop is that of a block.**  A loop that starts with a declaration or an
expression comes to the same outcome as a block of that and the loop without it: the same flow or
failure, trace and all, in the same state; or else neither comes to an end.

In particular an assignment that a loop starts with goes to the variable outside if there is one,
which keeps its place, and the loop gets none of its own.  If there is none the loop's scope gets
the variable; every round finds it there, and after the loop it is gone. -/
theorem loop_as_block (t : FunctionTable) {start : LoopStart} {header : Stmt}
    (begins : start.statement? = some header) (p q r : Position) (condition step : Option Expr)
    (body : List Stmt) (s : State) :
    (∀ o, Finishes t (.loop p start condition step body) s o ↔
      Finishes t (.block q [header, .loop r .nothing condition step body]) s o) ∧
    ∀ place word e, start = .expr (.assign place word e) → ∀ n,
      let loop : Task := ⟨n, .statement (.loop p start condition step body), s⟩
      (s.scopes.has word = true →
        (∀ k v s₁, Eval.expr t (.assign place word e) k s.opened = .done v s₁ →
          s.scopes.Rebound s₁.scopes.pop ∧ s₁.scopes.pop.lookup word = some v) ∧
        ∀ m s₁, loop.BeginsRound t condition step body m s₁ →
          word ∉ s₁.scopes.inner.names) ∧
      (s.scopes.has word = false →
        (∀ k v s₁, Eval.expr t (.assign place word e) k s.opened = .done v s₁ →
          s₁.scopes.inner.find? word = some v) ∧
        (∀ m s₁, loop.BeginsRound t condition step body m s₁ →
          word ∈ s₁.scopes.inner.names) ∧
        ∀ s', (Eval.statement t (.loop p start condition step body) n s).state? = some s' →
          s'.scopes.has word = false) := by
  refine ⟨fun o => ⟨?_, ?_⟩, ?_⟩
  · exact finishes_of_endsAs (loop_endsAs_block begins p q r condition step body)
  · exact finishes_of_endsAs (block_endsAs_loop begins p q r condition step body)
  rintro place word e rfl n loop
  refine ⟨fun bound => ⟨fun k v s₁ => assigned_outside bound, fun m s₁ round => ?_⟩,
    fun free => ⟨fun k v s₁ => assigned_inside free, fun m s₁ round => ?_, fun s' ended => ?_⟩⟩
  · obtain ⟨k, v, s₀, done, later⟩ := unshadowed_of_begins round
    exact not_mem_of_bound bound ((assigned done).2.trans later)
  · obtain ⟨k, v, s₀, done, later⟩ := unshadowed_of_begins round
    refine later.grown.inner ?_
    rw [Scope.mem_names, Scope.contains, assigned_inside free done]
    rfl
  · rw [(keeps_loop t p _ condition step body n s s' ended).2.has word]
    exact free

/-- A loop that prints its flag once, without a variable of that name outside and with one. -/
theorem flag_loop_as_block :
    let set (value : Bool) : Expr := .assign ⟨1, 6⟩ "i" (.bool ⟨1, 10⟩ value)
    let body : List Stmt := [.expr (.call ⟨2, 3⟩ "println" [.name ⟨2, 11⟩ "i"])]
    let flag : Option Expr := some (.name ⟨1, 16⟩ "i")
    let free : State := .start (.lines [])
    let bound : State := { free with scopes := ⟨⟨[("i", .null)]⟩, []⟩ }
    (∃ s', Finishes .empty (.block ⟨1, 1⟩ [.expr (set true),
        .loop ⟨1, 1⟩ .nothing flag (some (set false)) body]) free (.done .next s') ∧
      s'.console.output = "true\n" ∧ s'.scopes.has "i" = false) ∧
    ∃ s₁, Eval.expr .empty (set true) 3 bound.opened = .done (.bool true) s₁ ∧
      s₁.scopes.pop.lookup "i" = some (.bool true) := by
  intro set body flag free bound
  have either (s : State) := @loop_as_block .empty (.expr (set true)) _ rfl ⟨1, 1⟩ ⟨1, 1⟩ ⟨1, 1⟩
    flag (some (set false)) body s
  refine ⟨⟨_, ((either free).1 _).1 ⟨by rintro ⟨⟩, 20, rfl⟩, rfl, ?_⟩, _, rfl, ?_⟩
  · exact (((either free).2 _ "i" _ rfl 20).2 rfl).2.2 _ rfl
  · exact ((((either bound).2 _ "i" _ rfl 20).1 rfl).1 3 _ _ rfl).2

end Eval

end Script
