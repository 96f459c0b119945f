/-
# Script.Proofs.Eval.Shadowing -- expressions hide no variable

An assignment goes to the nearest scope that has the name, and binds it in the innermost scope only
where none has.  Nothing else in an expression binds a name in the scope it runs in: what a call
binds is gone when it is over.  So an expression may give the innermost scope new names, but none
that an outer scope has (`Eval.expr_unshadowed`).
-/
import Script.Proofs.Eval.Discipline

namespace Script

set_option autoImplicit false

namespace Scopes

variable {r s u : Scopes} {word : String} {value : Value}

/-- As many scopes, of which the innermost may have further names that no outer one has. -/
structure Unshadowed (r s : Scopes) : Prop where
  grown : r.Grown s
  new : ∀ word ∈ s.inner.names,
    word ∈ r.inner.names ∨ ∀ names ∈ r.outer.map Scope.names, word ∉ names

theorem Unshadowed.refl (r : Scopes) : r.Unshadowed r :=
  ⟨.refl r, fun _ own => .inl own⟩

theorem Unshadowed.trans (first : r.Unshadowed s) (second : s.Unshadowed u) : r.Unshadowed u := by
  refine ⟨first.grown.trans second.grown, fun word own => ?_⟩
  rcases second.new word own with known | away
  · exact first.new word known
  · rw [first.grown.outer] at away
    exact .inr away

theorem Rebound.unshadowed (rebound : r.Rebound s) : r.Unshadowed s := by
  refine ⟨rebound.grown, fun word own => .inl ?_⟩
  rwa [(rebound_iff.1 rebound).1] at own

theorem unshadowed_assign (r : Scopes) (word : String) (value : Value) :
    r.Unshadowed (r.assign word value) := by
  refine ⟨r.grown_assign word value, fun other own => ?_⟩
  unfold assign at own
  split at own
  · rename_i bound
    rw [Scope.names_set_of_contains value bound] at own
    exact .inl own
  · split at own
    · exact .inl own
    · rename_i unbound
      rw [Scope.names_set] at own
      rcases own with rfl | own
      · refine .inr fun names member has => ?_
        obtain ⟨scope, inside, rfl⟩ := List.mem_map.1 member
        rw [Scope.mem_names] at has
        exact List.any_eq_false.1 (overwrite?_eq_none_iff.1 unbound) scope inside has
      · exact .inl own

end Scopes

namespace Eval

variable {t : FunctionTable} {R : Scopes → Scopes → Prop}

/-- What follows a look-up of a function keeps what it keeps after each function found. -/
theorem keeps_check {α : Type} {p : Position} {found : Except Fault Callee} {f : Callee → Run α}
    (refl : ∀ r, R r r) (passed : ∀ c, found = .ok c → (f c).Keeps R) :
    (Run.check p found >>= f).Keeps R := by
  cases found with
  | ok c => exact passed c rfl
  | error fault => exact Run.keeps_fail refl p fault

/-- Expressions keep their scopes unshadowed, and calls keep the names of all. -/
def unshadowing (t : FunctionTable) : Tandem (.all .anywhere) t t where
  like f g := f = g
  maps := True
  term x _ := x.Keeps Scopes.Unshadowed
  call x _ := x.Keeps Scopes.Rebound
  term_of_call keeps := keeps.imp Scopes.Rebound.unshadowed
  call_pure := (discipline t).call_pure (s := .anywhere)
  call_bind := (discipline t).call_bind (s := .anywhere)
  term_bind first second := .bind Scopes.Unshadowed.trans first second
  call_fail := (discipline t).call_fail (s := .anywhere)
  call_attempt := (discipline t).call_attempt (s := .anywhere)
  call_make := (discipline t).call_make (s := .anywhere)
  call_writeLine := (discipline t).call_writeLine (s := .anywhere)
  call_readLine := (discipline t).call_readLine (s := .anywhere)
  term_write place value := (Run.quiet_write place value).keeps Scopes.Unshadowed.refl
  term_name := by
    intro p word _
    refine .bind Scopes.Unshadowed.trans (Run.quiet_scopes.keeps Scopes.Unshadowed.refl) ?_
    intro scopes
    split
    · exact (Run.quiet_pure _).keeps Scopes.Unshadowed.refl
    · split
      · exact (Run.quiet_pure _).keeps Scopes.Unshadowed.refl
      · exact Run.keeps_fail Scopes.Unshadowed.refl p _
  term_entryKey := by
    intro p entries entry _ _
    cases entry.1 with
    | literal text => exact (Run.quiet_pure _).keeps Scopes.Unshadowed.refl
    | name word =>
        refine .bind Scopes.Unshadowed.trans (Run.quiet_scopes.keeps Scopes.Unshadowed.refl) ?_
        intro scopes
        split
        · exact (Run.quiet_pure _).keeps Scopes.Unshadowed.refl
        · exact (Run.quiet_pure _).keeps Scopes.Unshadowed.refl
        · refine .bind Scopes.Unshadowed.trans ?_ fun _ =>
            Run.keeps_fail Scopes.Unshadowed.refl p _
          exact Run.keeps_attempt Scopes.Unshadowed.refl p _
  term_assign value _ s s' ended := by
    cases ended
    exact ⟨rfl, s.scopes.unshadowed_assign _ value⟩
  term_callee _ passed := by
    refine .bind Scopes.Unshadowed.trans (Run.quiet_scopes.keeps Scopes.Unshadowed.refl) ?_
    exact fun scopes => keeps_check Scopes.Unshadowed.refl fun c found =>
      passed found (.refl (fun _ => rfl) trivial c)
  call_callee _ _ passed :=
    keeps_check Scopes.Rebound.refl fun c found => passed found (.refl (fun _ => rfl) trivial c)

theorem unshadowing_kept (t : FunctionTable) : ∀ n, (unshadowing t).Kept n n
  | 0 => .zero fun none => none rfl ▸ (discipline t).call_exhausted (s := .anywhere)
  | n + 1 => by
      refine (unshadowing_kept t n).succ ?_
      rintro p name f _ args - - - rfl
      have body := ((discipline t).kept n).statements (Sites.anywhere_coversBlock f.body)
      exact keeps_enter Scopes.Grown.pop Scopes.Grown.refl Scopes.Grown.trans id body

/-- **Expressions hide no variable of an outer scope.** -/
theorem expr_unshadowed (t : FunctionTable) (e : Expr) (steps : Nat) :
    (Eval.expr t e steps).Keeps Scopes.Unshadowed :=
  (unshadowing_kept t steps).expr (Sites.anywhere_covers e)

end Eval

end Script
