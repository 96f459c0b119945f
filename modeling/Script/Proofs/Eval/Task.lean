/-
# Script.Proofs.Eval.Task -- what a run comes to

A `Task` is work about to begin in a state.  Its parts are tasks in turn, and it reaches whatever
its parts do (`Task.Reaches`); the beginning of each is a moment of its history.  From what is
reached one can look back: a function that is applied is the callback of a call of `map`, or it
was applied to begin with (`applied_by`).
-/
import Script.Proofs.Eval.History
import Mathlib.Logic.Relation

namespace Script

set_option autoImplicit false

/-- What follows a result has a property if it does after every result. -/
@[simp] theorem Outcome.forall_andThen {α β : Type} {o : Outcome α} {next : α → State → List β}
    {P : β → Prop} :
    (∀ b ∈ o.andThen next, P b) ↔ ∀ a s, o = .done a s → ∀ b ∈ next a s, P b := by
  cases o with
  | done a s =>
      refine ⟨?_, fun all => all a s rfl⟩
      rintro all a s ⟨⟩
      exact all
  | _ => simp [andThen]

namespace Eval

/-- A piece of work about to begin, with the steps it may make. -/
structure Task where
  steps : Nat
  work : Work
  state : State

/-- The run of `main` with so many steps, about to begin. -/
def Task.main (input : Input) (steps : Nat) : Task :=
  ⟨steps, .apply .start "main" [], .start input⟩

/-- The second piece of work is a part of the first. -/
inductive Task.Part (t : FunctionTable) : Task → Task → Prop
  | of {steps : Nat} {w w' : Work} {s s' : State} (member : (w', s') ∈ w.parts t steps s) :
      Part t ⟨steps + 1, w, s⟩ ⟨steps, w', s'⟩

/-- The first piece of work comes to the second, at any depth. -/
abbrev Task.Reaches (t : FunctionTable) : Task → Task → Prop :=
  Relation.ReflTransGen (Task.Part t)

/-- The beginning of work that is reached is a moment of the history. -/
theorem Task.Reaches.begun {t : FunctionTable} {task other : Task}
    (reached : task.Reaches t other) :
    ⟨other.work.given, other.state⟩ ∈ history t task.steps task.work task.state := by
  induction reached using Relation.ReflTransGen.head_induction_on with
  | refl =>
      obtain ⟨steps, w, s⟩ := other
      cases steps <;> simp [history]
  | head part _ ih =>
      cases part with
      | of member =>
          refine List.mem_append_left _ (List.mem_cons_of_mem _ ?_)
          exact List.mem_flatMap.2 ⟨_, member, ih⟩

/-! ## Functions that are applied -/

/-- The function that the work applies item by item, and the place it is called from. -/
@[simp] def Work.repeats? : Work → Option (Position × String)
  | .mapItems p name _ | .mapText p name _ _ => some (p, name)
  | _ => none

/-- The function that the work applies, once or item by item, and the place it is called from. -/
@[simp] def Work.applies? : Work → Option (Position × String)
  | .apply p name _ => some (p, name)
  | w => w.repeats?

section

variable {t : FunctionTable} {steps : Nat} {s : State} {p : Position} {name : String}

/-- Among the parts of a loop none applies a function by itself. -/
theorem applies?_roundParts (condition step : Option Expr) (body : List Stmt) :
    ∀ part ∈ Work.roundParts t steps condition step body s, part.1.applies? = none := by
  simp only [Work.roundParts, List.forall_mem_cons, Outcome.forall_andThen]
  refine ⟨rfl, fun flow s' _ => ?_⟩
  cases flow <;> cases step <;> simp [-Prod.forall]

/-- Work that applies no function item by item has no part that applies one, unless it is a call
of `map`. -/
theorem applies?_part {w : Work} (once : w.repeats? = none)
    (other : ∀ p args, w ≠ .intrinsic p .map args) :
    ∀ part ∈ w.parts t steps s, part.1.applies? = none := by
  cases w with
  | expr e => cases e <;> simp [-Prod.forall, Work.parts]
  | exprs es => cases es <;> simp [-Prod.forall, Work.parts]
  | dictEntries p entries filled => cases entries <;> simp [-Prod.forall, Work.parts]
  | call p callee args =>
      simp only [Work.parts]
      split <;> simp [-Prod.forall]
  | apply p name args =>
      simp only [Work.parts]
      split <;> simp
  | invoke p name f args => cases f <;> simp [-Prod.forall, Work.parts]
  | intrinsic p i args =>
      by_cases mapping : i = .map
      · subst mapping
        exact absurd rfl (other p args)
      · rw [Work.parts_intrinsic mapping]
        exact nofun
  | mapItems p name items => cases once
  | mapText p name cs joined => cases once
  | statement st =>
      cases st with
      | declare p word value => simp [Work.parts]
      | expr e => simp [Work.parts]
      | «return» p value => cases value <;> simp [Work.parts]
      | branch p condition yes no =>
          simp only [Work.parts, List.forall_mem_cons, Outcome.forall_andThen]
          refine ⟨rfl, fun v s' _ => ?_⟩
          split <;> simp
      | loop p start condition step body => cases start <;> simp [-Prod.forall, Work.parts]
      | block p body => simp [Work.parts]
  | rounds condition step body =>
      cases condition with
      | none => exact applies?_roundParts none step body
      | some e =>
          simp only [Work.parts, List.forall_mem_cons, Outcome.forall_andThen]
          refine ⟨rfl, fun v s' _ => ?_⟩
          split
          · exact applies?_roundParts (some e) step body
          · exact nofun
  | statements body =>
      cases body with
      | nil => exact nofun
      | cons first rest =>
          simp only [Work.parts, List.forall_mem_cons, Outcome.forall_andThen]
          refine ⟨rfl, fun flow s' _ => ?_⟩
          cases flow <;> simp

theorem callbackName_names {callback : Value} {s' : State}
    (named : callbackName p callback s = .done name s') :
    callback = .function name ∨ callback = .string name := by
  unfold callbackName at named
  split at named <;> cases named
  · exact .inl rfl
  · exact .inr rfl

/-- A call of `map` applies the function that its callback stands for. -/
theorem applies?_map {p : Position} {args : List Value} :
    ∀ part ∈ (Work.intrinsic p .map args).parts t steps s, ∀ q name,
      part.1.applies? = some (q, name) → q = p ∧ ∃ v callback, args = [v, callback] ∧
        (callback = .function name ∨ callback = .string name) := by
  rcases args with _ | ⟨v, _ | ⟨callback, _ | ⟨more, rest⟩⟩⟩
  case cons.cons.nil =>
    cases v with
    | list a | string text =>
        simp only [Work.parts, Outcome.forall_andThen, List.forall_mem_singleton]
        rintro called s' named q name ⟨⟩
        exact ⟨rfl, _, callback, rfl, callbackName_names named⟩
    | _ => simp [Work.parts]
  case nil => simp [Work.parts]
  all_goals cases v <;> simp [Work.parts]

/-- What applies a function is part of what applies it item by item, or of a call of `map` with a
callback that stands for it. -/
theorem applies?_of_part {w w' : Work} {s' : State} (member : (w', s') ∈ w.parts t steps s)
    (applied : w'.applies? = some (p, name)) :
    w.repeats? = some (p, name) ∨ ∃ v callback, w = .intrinsic p .map [v, callback] ∧
      (callback = .function name ∨ callback = .string name) := by
  by_cases mapping : ∃ q args, w = .intrinsic q .map args
  · obtain ⟨q, args, rfl⟩ := mapping
    obtain ⟨rfl, v, callback, rfl, stands⟩ := applies?_map _ member p name applied
    exact .inr ⟨v, callback, rfl, stands⟩
  · left
    cases w with
    | mapItems q called items =>
        cases items with
        | nil => cases member
        | cons item rest =>
            have same : ∀ part ∈ (Work.mapItems q called (item :: rest)).parts t steps s,
                part.1.applies? = some (q, called) := by
              simp [-Prod.forall, Work.parts]
            exact (same _ member).symm.trans applied
    | mapText q called cs joined =>
        cases cs with
        | nil => cases member
        | cons c rest =>
            have same : ∀ part ∈ (Work.mapText q called (c :: rest) joined).parts t steps s,
                part.1.applies? = some (q, called) := by
              simp [-Prod.forall, Work.parts]
            exact (same _ member).symm.trans applied
    | _ =>
        have none := applies?_part rfl (fun q args same => mapping ⟨q, args, same⟩) _ member
        rw [applied] at none
        cases none

/-- A function that is applied was applied to begin with, or is the callback of a call of `map`. -/
theorem applied_by {root task : Task} (once : root.work.repeats? = none)
    (reached : root.Reaches t task) (applied : task.work.applies? = some (p, name)) :
    task = root ∨ ∃ steps v callback s, root.Reaches t ⟨steps, .intrinsic p .map [v, callback], s⟩ ∧
      Task.Reaches t ⟨steps, .intrinsic p .map [v, callback], s⟩ task ∧
      (callback = .function name ∨ callback = .string name) := by
  induction reached with
  | refl => exact .inl rfl
  | @tail earlier task reached part ih =>
      have whole := part
      cases part with
      | @of steps w _ s _ member =>
          rcases applies?_of_part member applied with again | ⟨v, callback, rfl, stands⟩
          · have before : w.applies? = some (p, name) := by
              cases w <;> first | exact again | cases again
            rcases ih before with rfl | ⟨n, v, callback, s', above, below, stands⟩
            · rw [once] at again
              cases again
            · exact .inr ⟨n, v, callback, s', above, below.tail whole, stands⟩
          · exact .inr ⟨steps + 1, v, callback, s, reached, .single whole, stands⟩

end

end Eval

end Script
