/-
# Script.Proofs.Eval.MoreSteps -- with steps left over the number does not matter

A computation `EndsAs` another when it comes to an end only where the other does, and to the same
end: the same result or failure in the same state.  Given more steps, every part of the evaluator
ends as it did (`Eval.more_steps`), so what a call comes to, given enough steps, is one outcome
(`Ends.unique`).

The relation is kept also between two tables of functions that are alike in some way, as long as
the bodies of functions that are alike end alike (`Eval.endings`).
-/
import Script.Proofs.Eval.Tandem

namespace Script

set_option autoImplicit false

namespace Run

variable {α β : Type}

/-- Where the first computation comes to an end, the second comes to the same. -/
def EndsAs (x y : Run α) : Prop :=
  ∀ s, x s ≠ .exhausted → y s = x s

namespace EndsAs

variable {x y z : Run α} {f g : α → Run β}

theorem refl (x : Run α) : x.EndsAs x :=
  fun _ _ => rfl

theorem trans (first : x.EndsAs y) (second : y.EndsAs z) : x.EndsAs z := by
  intro s ended
  have same := first s ended
  rw [← same] at ended ⊢
  exact second s ended

/-- What never ends says nothing of what does. -/
theorem exhausted (y : Run α) : Run.exhausted.EndsAs y :=
  fun _ ended => absurd rfl ended

theorem bind (first : x.EndsAs y) (second : ∀ a, (f a).EndsAs (g a)) :
    (x >>= f).EndsAs (y >>= g) := by
  intro s ended
  change Run.bind x f s ≠ .exhausted at ended
  change Run.bind y g s = Run.bind x f s
  unfold Run.bind at *
  have same : y s = x s := by
    apply first s
    intro never
    rw [never] at ended
    exact ended rfl
  rw [same]
  cases done : x s with
  | done a mid =>
      rw [done] at ended
      exact second a mid ended
  | failed failure mid => rfl
  | aborted => rfl
  | exhausted => rfl

theorem inScope (ends : x.EndsAs y) : (inScope x).EndsAs (inScope y) := by
  intro s ended
  refine congrArg _ (ends _ fun never => ended ?_)
  rw [Run.inScope, never]
  rfl

theorem inCall {frame : Frame} (ends : x.EndsAs y) : (inCall frame x).EndsAs (inCall frame y) := by
  intro s ended
  refine congrArg _ (ends _ fun never => ended ?_)
  rw [Run.inCall, never]
  rfl

end EndsAs

end Run

namespace Eval

variable {like : Function → Function → Prop} {t u : FunctionTable} {name : String} {count : Nat}

/-- Two tables of functions that are alike call functions that are alike, or refuse alike. -/
theorem callee_alike (alike : t.Alike like u) (params : ∀ {f g}, like f g → f.params = g.params)
    (name : String) (count : Nat) :
    (∃ f g, t.callee name count = .ok f ∧ u.callee name count = .ok g ∧ Matches like True f g) ∨
      ∃ fault, t.callee name count = .error fault ∧ u.callee name count = .error fault := by
  unfold FunctionTable.callee
  cases Intrinsic.ofName? name with
  | some i =>
      dsimp only
      split
      · exact .inl ⟨_, _, rfl, rfl, .intrinsic fun _ => trivial⟩
      · exact .inr ⟨_, rfl, rfl⟩
  | none =>
      have own := alike name
      generalize t.find? name = f at own ⊢
      generalize u.find? name = g at own ⊢
      cases own with
      | none => exact .inr ⟨_, rfl, rfl⟩
      | @some f g own =>
          dsimp only
          have arity : f.arity = g.arity := congrArg List.length (params own)
          rw [← arity]
          split
          · exact .inl ⟨_, _, rfl, rfl, .user own⟩
          · exact .inr ⟨_, rfl, rfl⟩

/-- What is called over one table ends as what is called in its place over the other. -/
theorem ends_callee {α : Type} {p : Position} {x y : Callee → Run α} (alike : t.Alike like u)
    (params : ∀ {f g}, like f g → f.params = g.params)
    (passed : ∀ {f g}, t.callee name count = .ok f → Matches like True f g →
      (x f).EndsAs (y g)) :
    (Run.check p (t.callee name count) >>= x).EndsAs (Run.check p (u.callee name count) >>= y) := by
  rcases callee_alike alike params name count with ⟨f, g, found, found', same⟩ |
    ⟨fault, refused, refused'⟩
  · rw [found']
    rw [found] at passed ⊢
    exact passed rfl same
  · rw [refused, refused']
    exact .refl (Run.fail p fault)

/-- Over tables of functions that are alike, runs end alike. -/
def endings (like : Function → Function → Prop) (alike : t.Alike like u)
    (params : ∀ {f g}, like f g → f.params = g.params) : Convoy t u where
  tandem _ :=
    { like := like
      maps := True
      term := Run.EndsAs
      call := Run.EndsAs
      term_of_call := id
      call_pure := fun _ => .refl _
      call_bind := .bind
      term_bind := .bind
      call_fail := fun _ _ => .refl _
      call_attempt := fun _ _ => .refl _
      call_make := fun _ => .refl _
      call_writeLine := fun _ => .refl _
      call_readLine := .refl _
      term_write := fun _ _ => .refl _
      term_name := by
        intro p word _
        unfold Eval.name FunctionTable.names
        rw [alike.contains]
        exact .refl _
      term_entryKey := fun _ _ => .refl _
      term_assign := fun _ _ => .refl _
      term_callee := fun _ passed =>
        (Run.EndsAs.refl _).bind fun _ => ends_callee alike params passed
      call_callee := fun _ _ passed => ends_callee alike params passed }
  code _ _ := Run.EndsAs
  code_of_term := id
  code_bind := .bind
  code_define _ _ _ := .refl _
  term_truthy _ := .refl _
  term_inScope := .inScope

/-- The body of a function, closed by its call. -/
theorem ends_enter {p : Position} {f g : Function} {args : List Value} {x y : Run Flow}
    (params : f.params = g.params)
    (ends : (x >>= fun flow => pure (result flow)).EndsAs (y >>= fun flow => pure (result flow))) :
    (enter name p f args x).EndsAs (enter name p g args y) := by
  unfold enter
  rw [params]
  exact .inCall ((Run.EndsAs.refl _).bind fun _ => ends)

/-- The evaluator over one table. -/
def ownEndings (t : FunctionTable) : Convoy t t :=
  endings (· = ·) (.refl (fun _ => rfl) t) fun same => congrArg Function.params same

/-- **With more steps everything ends as it did.** -/
theorem more_steps (t : FunctionTable) : ∀ {n m : Nat}, n ≤ m → (ownEndings t).Kept n m
  | 0, _, _ => .zero fun _ => .exhausted _
  | n + 1, m + 1, more => by
      have kept := more_steps t (Nat.le_of_succ_le_succ more)
      refine kept.succ fun s => ?_
      rintro p name f _ args own known calls rfl
      exact ends_enter rfl ((kept.statements f.sites_covers (.refl f.body)).bind fun _ => .refl _)

/-- The call comes to the outcome if it may make enough steps. -/
def Ends (t : FunctionTable) (position : Position) (name : String) (args : List Value) (s : State)
    (o : Outcome Value) : Prop :=
  o ≠ .exhausted ∧ ∃ steps, apply t position name args steps s = o

theorem apply_more {n m : Nat} (more : n ≤ m) (p : Position) (name : String) (args : List Value) :
    (apply t p name args n).EndsAs (apply t p name args m) :=
  ((more_steps t more).terms .anywhere).apply name trivial trivial

/-- A call comes to one outcome only. -/
theorem Ends.unique {p : Position} {args : List Value} {s : State} {o o' : Outcome Value}
    (first : Ends t p name args s o) (second : Ends t p name args s o') : o = o' := by
  obtain ⟨ended, n, rfl⟩ := first
  obtain ⟨ended', m, rfl⟩ := second
  rcases Nat.le_total n m with more | more
  · exact (apply_more more p name args s ended).symm
  · exact apply_more more p name args s ended'

end Eval

end Script
