/-
# Script.Proofs.Eval.DeadCode -- what stands behind a `return` is never seen

A `return` ends the block it stands in, and all blocks, branches and loops around that, so what
stands behind it never runs.  A body that comes to its end gives null, as `return null` does.

Functions call each other, so it is not enough to look at one body: all functions of a table may
have changed in this way.  The main statement is `dead_code_never_shows`.
-/
import Script.Proofs.Eval.MoreSteps

namespace Script

set_option autoImplicit false

namespace Eval

/-- The value of a function with the body. -/
def valueOf (t : FunctionTable) (body : List Stmt) (steps : Nat) : Run Value :=
  Eval.statements t body steps >>= fun flow => pure (result flow)

variable {t u : FunctionTable} {p q : Position}

/-- The value of a block that comes first to other statements, as far as that is known. -/
theorem valueOf_cons (t : FunctionTable) (first : Stmt) (rest : List Stmt) (steps : Nat) :
    valueOf t (first :: rest) (steps + 1) = Eval.statement t first steps >>= fun flow =>
      match flow with
      | .returned value => pure value
      | .next => valueOf t rest steps := by
  simp only [valueOf, Eval.statements, bind_assoc]
  refine bind_congr fun flow => ?_
  cases flow <;> simp only [pure_bind, result]

/-- With the blocks behind a first statement ending alike, the blocks do. -/
theorem valueOf_cons_ends {first : Stmt} {rest rest' : List Stmt} {n m : Nat} (more : n ≤ m)
    (later : (valueOf t rest n).EndsAs (valueOf t rest' m)) :
    (valueOf t (first :: rest) (n + 1)).EndsAs (valueOf t (first :: rest') (m + 1)) := by
  rw [valueOf_cons, valueOf_cons]
  have own := (more_steps t more).statement (Sites.anywhere_coversStmt first) (.refl first)
  refine own.bind fun flow => ?_
  cases flow with
  | returned value => exact .refl _
  | next => exact later

/-- Closing a body with `return null` leaves its value as it was. -/
theorem ends_closed (t : FunctionTable) (p q : Position) : ∀ (body : List Stmt) (n : Nat),
    (valueOf t body n).EndsAs (valueOf t (body ++ [Stmt.returnNull p q]) (n + 2))
  | _, 0 => .exhausted _
  | [], _ + 1 => .refl _
  | _ :: rest, n + 1 => valueOf_cons_ends (Nat.le_add_right n 2) (ends_closed t p q rest n)

/-- So does taking it away. -/
theorem ends_unclosed (t : FunctionTable) (p q : Position) : ∀ (body : List Stmt) (n : Nat),
    (valueOf t (body ++ [Stmt.returnNull p q]) n).EndsAs (valueOf t body n)
  | _, 0 | [], 1 | [], 2 => .exhausted _
  | [], _ + 3 => .refl _
  | _ :: rest, n + 1 => valueOf_cons_ends (Nat.le_refl n) (ends_unclosed t p q rest n)

/-- The evaluator over two tables of functions that are the same but for dead code. -/
def deadCode (same : t.SameLive u) : Convoy t u :=
  endings Function.SameLive same Function.SameLive.params

/-- Bodies that come to the same result have the same value, if blocks that differ in dead code
do. -/
theorem ends_sameResult {body body' : List Stmt} {n m : Nat}
    (kept : ∀ {body body'}, Stmt.SameBlock body body' →
      (valueOf t body n).EndsAs (valueOf u body' m)) (same : Stmt.SameResult body body') :
    (valueOf t body n).EndsAs (valueOf u body' (m + 2)) := by
  have slack : ∀ body : List Stmt, (valueOf u body m).EndsAs (valueOf u body (m + 2)) := by
    intro body
    have own := (more_steps u (Nat.le_add_right m 2)).statements
      (Sites.anywhere_coversBlock body) (.refl body)
    exact own.bind fun _ => .refl _
  cases same with
  | same live => exact (kept live).trans (slack _)
  | longer p q live => exact (kept live).trans (ends_closed u p q _ m)
  | shorter p q live => exact ((ends_unclosed t p q _ n).trans (kept live)).trans (slack _)

/-- Three steps over the second table do for one over the first: closing a body with `return null`
takes up to two more. -/
theorem deadCode_kept (same : t.SameLive u) :
    ∀ {n m : Nat}, 3 * n ≤ m → (deadCode same).Kept n m
  | 0, _, _ => .zero fun _ => .exhausted _
  | n + 1, m + 3, more => by
      have less : 3 * n ≤ m := by omega
      have kept := deadCode_kept same (Nat.le_add_right_of_le less : 3 * n ≤ m + 2)
      refine kept.succ fun s => ?_
      intro p name f g args own known calls alike
      refine ends_enter alike.params ?_
      refine ends_sameResult (fun live => ?_) alike.body
      have body := (deadCode_kept same less).statements (Sites.anywhere_coversBlock _) live
      exact body.bind fun _ => .refl _

theorem apply_endsAs (same : t.SameLive u) (p : Position) (name : String) (args : List Value)
    (n : Nat) : (apply t p name args n).EndsAs (apply u p name args (3 * n)) :=
  ((deadCode_kept same (Nat.le_refl _)).terms .anywhere).apply name trivial trivial

theorem ends_of_sameLive (same : t.SameLive u) {name : String} {args : List Value} {s : State}
    {o : Outcome Value} (ends : Ends t p name args s o) : Ends u p name args s o := by
  obtain ⟨ended, n, rfl⟩ := ends
  exact ⟨ended, 3 * n, apply_endsAs same p name args n s ended⟩

/-- **Dead code never shows.**  Over tables of functions that differ only in statements behind a
`return`, at any depth, and in a closing `return null`, a call comes to the same outcome, or to none
over either: the same value or failure, trace and all, in the same state, which has the scopes, the
containers, what was written and what is left of the input.  Three times the steps are enough. -/
theorem dead_code_never_shows {t u : FunctionTable} (same : t.SameLive u) (position : Position)
    (name : String) (args : List Value) (s : State) :
    (∀ o, Ends t position name args s o ↔ Ends u position name args s o) ∧
    (∀ steps, apply t position name args steps s ≠ .exhausted →
      apply u position name args (3 * steps) s = apply t position name args steps s) ∧
    (callFunction t name args position s ≠ .exhausted →
      callFunction u name args position s ≠ .exhausted →
        callFunction u name args position s = callFunction t name args position s) := by
  have swapped : u.SameLive t := FunctionTable.Alike.symm Function.SameLive.symm same
  refine ⟨fun o => ⟨ends_of_sameLive same, ends_of_sameLive swapped⟩,
    fun steps => apply_endsAs same position name args steps s, fun ended ended' => ?_⟩
  have first := ends_of_sameLive same ⟨ended, limit, rfl⟩
  exact Ends.unique ⟨ended', limit, rfl⟩ first

/-- Gives back its argument, out of a loop, unless that counts as false. -/
def givesBack (dead closing : List Stmt) : FunctionTable where
  entries := [("givesBack", ⟨"givesBack", ["x"], [.loop ⟨2, 1⟩ .nothing (some (.name ⟨2, 9⟩ "x"))
    none (.return ⟨3, 1⟩ (some (.name ⟨3, 8⟩ "x")) :: dead)] ++ closing, ⟨1, 5⟩⟩)]

/-- A call behind the `return` is left out, and `return null` is put at the end. -/
theorem dead_call_never_shows :
    let dead : List Stmt := [.expr (.call ⟨4, 1⟩ "givesBack" [.name ⟨4, 11⟩ "y"])]
    let t := givesBack dead []
    let u := givesBack [] [Stmt.returnNull ⟨5, 1⟩ ⟨5, 8⟩]
    let s : State := .start (.lines [])
    t.SameLive u ∧ Ends u .start "givesBack" [.bool true] s (.done (.bool true) s) ∧
      Ends u .start "givesBack" [.null] s (.done .null s) := by
  intro dead t u s
  have same : t.SameLive u := by
    intro name
    by_cases own : name = "givesBack"
    · subst own
      exact .some ⟨rfl, .longer _ _ (.cons (.loop _ _ _ _ (.dead _ _ _ _)) .nil)⟩
    · have missing : ∀ dead closing, (givesBack dead closing).find? name = none := by
        intro dead closing
        simp [givesBack, FunctionTable.find?, List.lookup_cons, beq_false_of_ne own]
      simp only [t, u, missing]
      exact .none
  refine ⟨same, ?_, ?_⟩
  · refine ((dead_code_never_shows same .start "givesBack" [.bool true] s).1 _).1 ?_
    exact ⟨by rintro ⟨⟩, 20, rfl⟩
  · refine ((dead_code_never_shows same .start "givesBack" [.null] s).1 _).1 ?_
    exact ⟨by rintro ⟨⟩, 20, rfl⟩

end Eval

end Script
