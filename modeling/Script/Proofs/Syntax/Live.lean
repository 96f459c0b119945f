/-
# Script.Proofs.Syntax.Live -- code that differs in what never runs

A block ends at the first `return` among its statements, so what stands behind it never runs.
Statements are the `SameLive` if they differ in such dead code only, at any depth.  Bodies of
functions come to the `SameResult` if in addition one of them may close with `return null`, which
a body that comes to its end does anyway.
-/
import Script.FunctionTable

namespace Script

set_option autoImplicit false

namespace Stmt

mutual

/-- Two statements that differ in dead code at most. -/
inductive SameLive : Stmt → Stmt → Prop
  | declare (p : Position) (word : String) (value : Expr) :
      SameLive (.declare p word value) (.declare p word value)
  | expr (e : Expr) : SameLive (.expr e) (.expr e)
  | return (p : Position) (value : Option Expr) : SameLive (.return p value) (.return p value)
  | branch (p : Position) (condition : Expr) {yes yes' : List Stmt} (same : SameBlock yes yes') :
      SameLive (.branch p condition yes none) (.branch p condition yes' none)
  | branchElse (p : Position) (condition : Expr) {yes yes' no no' : List Stmt}
      (same : SameBlock yes yes') (same' : SameBlock no no') :
      SameLive (.branch p condition yes (some no)) (.branch p condition yes' (some no'))
  | loop (p : Position) (start : LoopStart) (condition step : Option Expr) {body body' : List Stmt}
      (same : SameBlock body body') :
      SameLive (.loop p start condition step body) (.loop p start condition step body')
  | block (p : Position) {body body' : List Stmt} (same : SameBlock body body') :
      SameLive (.block p body) (.block p body')

/-- Two blocks that differ in dead code at most. -/
inductive SameBlock : List Stmt → List Stmt → Prop
  | nil : SameBlock [] []
  | cons {st st' : Stmt} {rest rest' : List Stmt} (same : SameLive st st')
      (later : SameBlock rest rest') : SameBlock (st :: rest) (st' :: rest')
  | dead (p : Position) (value : Option Expr) (rest rest' : List Stmt) :
      SameBlock (.return p value :: rest) (.return p value :: rest')

end

mutual

theorem SameLive.refl : ∀ st : Stmt, st.SameLive st
  | .declare p word value => .declare p word value
  | .expr e => .expr e
  | .return p value => .return p value
  | .branch p condition yes none => .branch p condition (SameBlock.refl yes)
  | .branch p condition yes (some no) =>
      .branchElse p condition (SameBlock.refl yes) (SameBlock.refl no)
  | .loop p start condition step body => .loop p start condition step (SameBlock.refl body)
  | .block p body => .block p (SameBlock.refl body)

theorem SameBlock.refl : ∀ body : List Stmt, SameBlock body body
  | [] => .nil
  | st :: rest => .cons (SameLive.refl st) (SameBlock.refl rest)

end

mutual

theorem SameLive.symm {st st' : Stmt} : st.SameLive st' → st'.SameLive st
  | .declare p word value => .declare p word value
  | .expr e => .expr e
  | .return p value => .return p value
  | .branch p condition same => .branch p condition same.symm
  | .branchElse p condition same same' => .branchElse p condition same.symm same'.symm
  | .loop p start condition step same => .loop p start condition step same.symm
  | .block p same => .block p same.symm

theorem SameBlock.symm {body body' : List Stmt} : SameBlock body body' → SameBlock body' body
  | .nil => .nil
  | .cons same later => .cons same.symm later.symm
  | .dead p value rest rest' => .dead p value rest' rest

end

/-- `return null`, with the places of its two words. -/
def returnNull (p q : Position) : Stmt :=
  .return p (some (.null q))

/-- Two bodies that differ in dead code at most, one of which may close with `return null`. -/
inductive SameResult : List Stmt → List Stmt → Prop
  | same {body body' : List Stmt} (live : SameBlock body body') : SameResult body body'
  | longer (p q : Position) {body body' : List Stmt} (live : SameBlock body body') :
      SameResult body (body' ++ [returnNull p q])
  | shorter (p q : Position) {body body' : List Stmt} (live : SameBlock body body') :
      SameResult (body ++ [returnNull p q]) body'

theorem SameResult.refl (body : List Stmt) : SameResult body body :=
  .same (.refl body)

theorem SameResult.symm {body body' : List Stmt} :
    SameResult body body' → SameResult body' body
  | .same live => .same live.symm
  | .longer p q live => .shorter p q live.symm
  | .shorter p q live => .longer p q live.symm

end Stmt

/-- Two functions of the same parameters whose bodies come to the same. -/
structure Function.SameLive (f g : Function) : Prop where
  params : f.params = g.params
  body : Stmt.SameResult f.body g.body

namespace Function.SameLive

theorem symm {f g : Function} (same : f.SameLive g) : g.SameLive f :=
  ⟨same.params.symm, same.body.symm⟩

end Function.SameLive

namespace FunctionTable

variable {like : Function → Function → Prop} {t u : FunctionTable}

/-- Two tables that have functions of the same names, each like the other of its name. -/
def Alike (like : Function → Function → Prop) (t u : FunctionTable) : Prop :=
  ∀ name, Option.Rel like (t.find? name) (u.find? name)

/-- Two tables of functions that are the same but for dead code and a closing `return null`. -/
def SameLive : FunctionTable → FunctionTable → Prop :=
  Alike Function.SameLive

namespace Alike

theorem refl (same : ∀ f, like f f) (t : FunctionTable) : Alike like t t := by
  intro name
  cases t.find? name with
  | none => exact .none
  | some f => exact .some (same f)

theorem symm (swap : ∀ {f g}, like f g → like g f) (alike : Alike like t u) : Alike like u t := by
  intro name
  have own := alike name
  generalize t.find? name = f at own ⊢
  generalize u.find? name = g at own ⊢
  cases own with
  | none => exact .none
  | some own => exact .some (swap own)

/-- The same names stand for functions. -/
theorem contains (alike : Alike like t u) (name : String) : t.contains name = u.contains name := by
  have own := alike name
  unfold FunctionTable.contains
  generalize t.find? name = f at own ⊢
  generalize u.find? name = g at own ⊢
  cases own <;> rfl

end Alike

end FunctionTable

end Script
