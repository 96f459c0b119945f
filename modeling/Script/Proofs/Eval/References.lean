/-
# Script.Proofs.Eval.References -- function references name functions

A reference to a function is made in one place only, where a name is evaluated that no variable
has, and only for the name of a function.  From there on references are passed around like any
other value, and containers hold what was put into them.  So a reference names a function wherever
it turns up.
-/
import Script.Proofs.Eval.Course
import Script.Proofs.Eval.Origin
import Script.Proofs.Store.Order

namespace Script

set_option autoImplicit false

namespace Eval

/-- If the value refers to a function, there is a function of that name. -/
def Refers (t : FunctionTable) (v : Value) : Prop :=
  ∀ name, v = .function name → t.names name = true

/-- References are kept naming functions, in containers as elsewhere. -/
def references (t : FunctionTable) : Upkeep t where
  sound s := ∀ (a : Nat) (cell : Cell), s.cells[a]? = some cell → ∀ v ∈ cell.values, Refers t v
  fine _ v := Refers t v
  grows _ _ := True
  mayWrite := True
  grows_refl _ := trivial
  grows_trans _ _ := trivial
  fine_grows _ known := known
  fine_plain plain := by
    rintro name rfl
    cases plain
  fine_function := by
    rintro _ name known _ ⟨⟩
    exact known
  fine_held := by
    rintro s target v sound - (⟨a, -, member⟩ | ⟨a, key, -, member⟩)
    · obtain ⟨cell, found, held⟩ := Store.mem_items member
      exact sound a cell found v held
    · obtain ⟨cell, found, held⟩ := Store.mem_entries member
      exact sound a cell found v held
  newList := by
    intro s items sound known
    refine ⟨fun a cell found v member => ?_, trivial, nofun⟩
    rcases Store.held_after_push found member with new | ⟨old, there, held⟩
    · exact known v new
    · exact sound a old there v held
  newDict := by
    intro s entries sound known
    refine ⟨fun a cell found v member => ?_, trivial, nofun⟩
    rcases Store.held_after_push found member with new | ⟨old, there, held⟩
    · exact List.forall_mem_map.2 known v new
    · exact sound a old there v held
  write := by
    intro s target index value place _ sound _ known _
    refine ⟨fun a cell found v member => ?_, trivial⟩
    rcases Store.held_after_write found member with rfl | ⟨old, there, held⟩
    · exact known
    · exact sound a old there v held
  code _ _ _ _ := trivial

variable {t : FunctionTable} {input : Input} {steps : Nat} {task : Task}

theorem ready_references (t : FunctionTable) (input : Input) :
    (references t).Ready (.apply .start "main" []) (.start input) where
  fine := by
    refine ⟨fun a cell found => ?_, Scopes.all_start, nofun⟩
    simp [State.start, Store.empty] at found
  code := fun _ _ _ => trivial

/-- Where a task begins, references name functions. -/
theorem fine_of_reached (reached : (Task.main input steps).Reaches t task) :
    (references t).Fine task.work.given task.state :=
  (((references t).history_kept steps (ready_references t input)).all _ reached.begun).2

/-- Looking up a name that stands for a function does not come to nothing. -/
theorem callee_of_names {name other : String} {count : Nat} (known : t.names name = true) :
    t.callee name count ≠ .error (.undefinedFunction other) := by
  intro failed
  obtain ⟨missing, -⟩ := FunctionTable.callee_unfound failed ⟨other, .inr rfl⟩
  rw [known] at missing
  cases missing

/-- How a task can come to fail for want of the function of a name. -/
inductive Missed (t : FunctionTable) (root : Task) : String → Failure → Prop
  | main (absent : t.contains "main" = false) :
      Missed t root "main" (.ofFault (.undefinedFunction "main") .start)
  | call {steps : Nat} {p : Position} {name : String} {args : List Expr} {s : State}
      (reached : root.Reaches t ⟨steps, .call p name args, s⟩)
      (unbound : ∀ f, s.scopes.lookup name ≠ some (.function f)) :
      Missed t root name (s.calls.failure (.undefinedFunction name) p)
  | map {steps steps' : Nat} {p : Position} {v : Value} {name : String} {args : List Value}
      {s s' : State} (reached : root.Reaches t ⟨steps, .intrinsic p .map [v, .string name], s⟩)
      (applied : Task.Reaches t ⟨steps, .intrinsic p .map [v, .string name], s⟩
        ⟨steps', .apply p name args, s'⟩) :
      Missed t root name (s'.calls.failure (.undefinedFunction name) p)

/-- A name that a function reference is bound to stands for a function where it is called. -/
theorem names_target (reached : (Task.main input steps).Reaches t task) {callee name : String}
    (bound : task.state.scopes.lookup callee = some (.function name)) :
    t.names (task.state.scopes.target callee) = true := by
  have target : task.state.scopes.target callee = name := by
    rw [Scopes.target, bound]
  rw [target]
  exact (fine_of_reached reached).bound.lookup bound name rfl

/-- So does a function reference that `map` is given. -/
theorem names_callback (reached : (Task.main input steps).Reaches t task) {p : Position}
    {v : Value} {name : String} (work : task.work = .intrinsic p .map [v, .function name]) :
    t.names name = true := by
  have fine := (fine_of_reached reached).atHand (.function name)
  rw [work] at fine
  exact fine (by simp [Work.given]) name rfl

theorem missed_of_unknown {failure : Failure} {name : String}
    (reached : (Task.main input steps).Reaches t task)
    (unknown : Unknown t task.work task.state failure)
    (fault : failure.fault = .undefinedFunction name) :
    t.names name = false ∧ Missed t (Task.main input steps) name failure := by
  obtain ⟨missing, ⟨rfl, rfl⟩ | lookedUp⟩ := lookedUp_of_unknown reached unknown (.inr fault)
  · refine ⟨missing, .main ?_⟩
    rw [FunctionTable.names, Bool.or_eq_false_iff] at missing
    exact missing.1
  refine ⟨missing, ?_⟩
  cases lookedUp with
  | @call n p callee args s _ above target =>
      have unbound : ∀ f, s.scopes.lookup callee ≠ some (.function f) := by
        intro f bound
        have known := names_target above bound
        rw [target, missing] at known
        cases known
      obtain rfl : callee = name := (target_of_unbound unbound).symm.trans target
      exact .call above unbound
  | map above stands below =>
      rcases stands with rfl | rfl
      · have known := names_callback above rfl
        rw [missing] at known
        cases known
      · exact .map above below
  | word => cases fault

/-- **Function references never dangle.**  At every moment of a run of `main` the function
references that are bound, held by a container or at hand name an intrinsic or a function of the
table.  So a run can fail for want of a function only where there is no `main`, where a call is
written with a name that no function reference is bound to, and where `map` is given a string; the
calls of function references, and those that `map` makes of one, always find it. -/
theorem references_never_dangle (t : FunctionTable) (input : Input) :
    (∀ steps, ∀ m ∈ mainHistory t input steps, ∀ name,
      m.Has (.function name) → t.names name = true) ∧
    (∀ failure s name, runMain t (.start input) = .failed failure s →
      failure.fault = .undefinedFunction name →
        t.names name = false ∧ Missed t (Task.main input limit) name failure) ∧
    ∀ steps task, (Task.main input steps).Reaches t task →
      (∀ p callee args name, task.work = .call p callee args →
        task.state.scopes.lookup callee = some (.function name) →
          ∀ other, t.callee (task.state.scopes.target callee) args.length ≠
            .error (.undefinedFunction other)) ∧
      ∀ p v name, task.work = .intrinsic p .map [v, .function name] →
        ∀ other, t.callee name 1 ≠ .error (.undefinedFunction other) := by
  refine ⟨fun steps m member name has => ?_, fun failure s name failed fault => ?_,
    fun steps task reached => ⟨fun p callee args name _ bound other => ?_,
      fun p v name work other => ?_⟩⟩
  · have fine := (((references t).history_kept steps (ready_references t input)).all m member).2
    rcases has with given | ⟨scope, inside, b, bound, same⟩ | ⟨cell, inside, held⟩
    · exact fine.atHand _ given name rfl
    · exact fine.bound scope inside b bound name same
    · obtain ⟨a, found⟩ := List.mem_iff_getElem?.1 inside
      rw [Array.getElem?_toList] at found
      exact fine.sound a cell found _ held name rfl
  · rw [runMain, callFunction] at failed
    have failed : (Work.apply .start "main" []).failure? t limit (.start input) = some failure :=
      congrArg Outcome.failure? failed
    obtain ⟨task, reached, unknown⟩ := origin limit failed ⟨name, .inr fault⟩
    exact missed_of_unknown reached unknown fault
  · exact callee_of_names (names_target reached bound)
  · exact callee_of_names (names_callback reached work)

/-- A `main` that has `map` call a function by the name of none. -/
def misnamed : FunctionTable where
  entries := [("main", ⟨"main", [], [.expr (.call ⟨2, 3⟩ "map"
    [.list ⟨2, 7⟩ [.null ⟨2, 8⟩], .string ⟨2, 14⟩ "nothing"])], ⟨1, 5⟩⟩)]

/-- The run fails for want of that function. -/
theorem missed_callback :
    ∃ failure s, runMain misnamed (.start (.lines [])) = .failed failure s ∧
      failure = ⟨.undefinedFunction "nothing", ⟨2, 3⟩, [⟨"main", .start⟩]⟩ ∧
      Missed misnamed (Task.main (.lines []) limit) "nothing" failure := by
  obtain ⟨-, causes, -⟩ := references_never_dangle misnamed (.lines [])
  refine ⟨_, _, rfl, rfl, ?_⟩
  exact (causes _ _ "nothing" rfl rfl).2

end Eval

end Script
