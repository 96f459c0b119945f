/-
# Script.Proofs.Syntax.Scoping -- functions that use their own variables only

Scoping is dynamic, so what a body reads or assigns may be a variable of its caller.  A function is
`WellScoped` if that cannot be: every name it reads or assigns, keys of dictionaries included, is a
parameter or was declared before, in the same block or one around it.  What it calls are intrinsics,
by names that none of its variables has, and `map` is not among them, since that calls back.

The conditions can be computed, so that whether a given function satisfies them can be decided.
-/
import Script.Intrinsic
import Script.Proofs.Syntax.Parts

namespace Script

set_option autoImplicit false

namespace Expr

/-- Whether the node by itself reads and assigns `known` names and calls `called` ones only. -/
def nodeKeepsTo (called known : List String) : Expr → Bool
  | .name _ word | .assign _ word _ => decide (word ∈ known)
  | .dict _ entries => entries.all fun entry =>
      match entry.1 with
      | .literal _ => true
      | .name word => decide (word ∈ known)
  | .call _ callee _ => decide (callee ∈ called)
  | _ => true

/-- Whether all nodes of the expression do. -/
def keepsTo (called known : List String) (e : Expr) : Bool :=
  e.parts.all (nodeKeepsTo called known)

theorem keepsTo_iff {called known : List String} {e : Expr} :
    e.keepsTo called known = true ↔ e.All fun part => part.nodeKeepsTo called known = true :=
  List.all_eq_true

end Expr

/-- The name that the start of a loop declares for the loop. -/
def LoopStart.declares : LoopStart → List String
  | .declare _ word _ => [word]
  | _ => []

namespace Stmt

/-- The name that the statement declares for those behind it in its block. -/
def declares : Stmt → List String
  | .declare _ word _ => [word]
  | _ => []

mutual

/-- Whether the statement, where the names are known, uses these only, the ones it declares itself
before it uses them, and `called` ones to call.  None that is called is declared. -/
def keepsTo (called known : List String) : Stmt → Bool
  | .declare _ word value => value.keepsTo called known && decide (word ∉ called)
  | .expr e => e.keepsTo called known
  | .return _ value => value.all (·.keepsTo called known)
  | .branch _ condition yes no =>
      condition.keepsTo called known && blockKeepsTo called known yes &&
        match no with
        | none => true
        | some no => blockKeepsTo called known no
  | .loop _ start condition step body =>
      (match start with
        | .nothing => true
        | .declare _ word value => value.keepsTo called known && decide (word ∉ called)
        | .expr e => e.keepsTo called known) &&
      condition.all (·.keepsTo called (start.declares ++ known)) &&
      step.all (·.keepsTo called (start.declares ++ known)) &&
      blockKeepsTo called (start.declares ++ known) body
  | .block _ body => blockKeepsTo called known body

/-- Whether the statements do, each knowing what those before it declare. -/
def blockKeepsTo (called known : List String) : List Stmt → Bool
  | [] => true
  | st :: rest => st.keepsTo called known && blockKeepsTo called (st.declares ++ known) rest

end

end Stmt

namespace Function

/-- The names that the body calls. -/
def callees (f : Function) : List String :=
  f.expressions.filterMap fun
    | .call _ callee _ => some callee
    | _ => none

/-- The function uses its own variables only, and calls nothing but intrinsics other than `map`, by
names that none of its variables has. -/
structure WellScoped (f : Function) : Prop where
  intrinsics : ∀ callee ∈ f.callees, ∃ i ∈ Intrinsic.ofName? callee, i ≠ .map
  params : ∀ word ∈ f.params, word ∉ f.callees
  body : Stmt.blockKeepsTo f.callees f.params f.body = true

instance (f : Function) : Decidable f.WellScoped :=
  decidable_of_iff ((∀ callee ∈ f.callees, ∃ i ∈ Intrinsic.ofName? callee, i ≠ .map) ∧
      (∀ word ∈ f.params, word ∉ f.callees) ∧ Stmt.blockKeepsTo f.callees f.params f.body = true)
    ⟨fun ⟨intrinsics, params, body⟩ => ⟨intrinsics, params, body⟩,
      fun ⟨intrinsics, params, body⟩ => ⟨intrinsics, params, body⟩⟩

end Function

end Script
