/-
# Script.Proofs.Eval.Extension -- further functions change nothing that runs

A name is a variable before it is a function, and a key of a dictionary is never a function, so
what a table holds beyond the functions a program uses is not seen.  Only a run that fails because
a name stands for nothing can go on differently in a larger table.

A computation is `KeptBy` another when the other does the same, unless the first fails in this
way.  That is a lockstep between a table and any table that it is `Within` (`Eval.extension`); the
main statement is `unchanged_in_larger_table`.
-/
import Script.Proofs.Eval.Lockstep

namespace Script

set_option autoImplicit false

/-- A name stands for nothing. -/
def Fault.IsUnknownName : Fault → Prop
  | undefinedVariable _ | undefinedFunction _ => True
  | _ => False

/-- The computation failed because a name stands for nothing. -/
def Outcome.LacksName {α : Type} (o : Outcome α) : Prop :=
  ∃ failure s, o = .failed failure s ∧ failure.fault.IsUnknownName

namespace FunctionTable

/-- Every function of the first table is in the second, under the same name. -/
def Within (t u : FunctionTable) : Prop :=
  ∀ name f, t.find? name = some f → u.find? name = some f

variable {t u : FunctionTable} {name : String} {count : Nat}

/-- A further function does not displace those that are there. -/
theorem within_add (t : FunctionTable) (name : String) (f : Function) :
    t.Within (t.add name f) := by
  intro other g found
  rw [find?_add, found]
  rfl

namespace Within

theorem names (within : t.Within u) (known : t.names name = true) : u.names name = true := by
  unfold FunctionTable.names contains at *
  cases found : t.find? name with
  | some f => rw [within name f found]; rfl
  | none =>
      rw [found] at known
      rw [Bool.or_eq_true]
      exact .inr known

theorem callee (within : t.Within u) {f : Callee} (found : t.callee name count = .ok f) :
    u.callee name count = .ok f := by
  unfold FunctionTable.callee at *
  cases own : Intrinsic.ofName? name with
  | some i => rwa [own] at found
  | none =>
      rw [own] at found
      cases known : t.find? name with
      | none => rw [known] at found; cases found
      | some g =>
          rw [within name g known]
          rwa [known] at found

/-- A call with the wrong number of arguments stays one. -/
theorem refused (within : t.Within u) {fault : Fault}
    (refused : t.callee name count = .error fault) (known : ¬ fault.IsUnknownName) :
    u.callee name count = .error fault := by
  unfold FunctionTable.callee at *
  cases own : Intrinsic.ofName? name with
  | some i => rwa [own] at refused
  | none =>
      rw [own] at refused
      cases found : t.find? name with
      | none =>
          rw [found] at refused
          cases refused
          exact absurd trivial known
      | some g =>
          rw [within name g found]
          rwa [found] at refused

end Within

end FunctionTable

namespace Run

variable {α β : Type}

/-- The second computation does what the first does, unless that fails for want of a name. -/
def KeptBy (x y : Run α) : Prop :=
  ∀ s, ¬ (x s).LacksName → y s = x s

theorem KeptBy.refl (x : Run α) : x.KeptBy x :=
  fun _ _ => rfl

/-- What fails for want of a name is kept by everything. -/
theorem kept_of_unknown {p : Position} {fault : Fault} (unknown : fault.IsUnknownName) (y : Run α) :
    (fail p fault).KeptBy y :=
  fun s known => absurd ⟨s.calls.failure fault p, s, rfl, unknown⟩ known

theorem KeptBy.bind {x y : Run α} {f g : α → Run β} (first : x.KeptBy y)
    (second : ∀ a, (f a).KeptBy (g a)) : (x >>= f).KeptBy (y >>= g) := by
  intro s known
  change ¬ (Run.bind x f s).LacksName at known
  change Run.bind y g s = Run.bind x f s
  unfold Run.bind at *
  have same : y s = x s := by
    apply first s
    rintro ⟨failure, s', failed, unknown⟩
    rw [failed] at known
    exact known ⟨failure, s', rfl, unknown⟩
  rw [same]
  cases ended : x s with
  | done a mid =>
      rw [ended] at known
      exact second a mid known
  | failed failure mid => rfl
  | aborted => rfl
  | exhausted => rfl

/-- What is changed in the state that is left behind has no part in why a computation fails. -/
theorem lacksName_mapState {o : Outcome α} {f : State → State} :
    o.LacksName → (o.mapState f).LacksName := by
  rintro ⟨failure, s, rfl, unknown⟩
  exact ⟨failure, f s, rfl, unknown⟩

theorem KeptBy.inScope {x y : Run α} (kept : x.KeptBy y) : (inScope x).KeptBy (inScope y) := by
  intro s known
  exact congrArg _ (kept _ fun lacks => known (lacksName_mapState lacks))

theorem KeptBy.inCall {frame : Frame} {x y : Run α} (kept : x.KeptBy y) :
    (inCall frame x).KeptBy (inCall frame y) := by
  intro s known
  exact congrArg _ (kept _ fun lacks => known (lacksName_mapState lacks))

end Run

namespace Eval

/-- What runs over a table runs the same over a larger one. -/
def extension {t u : FunctionTable} (within : t.Within u) : Lockstep t u where
  code _ _ x y := x.KeptBy y
  call _ _ x y := x.KeptBy y
  code_of_call kept := kept
  call_pure _ := .refl _
  call_bind first second := first.bind second
  code_bind first second := first.bind second
  call_exhausted := .refl _
  call_fail _ _ := .refl _
  call_attempt _ _ := .refl _
  call_make _ := .refl _
  call_writeLine _ := .refl _
  call_readLine := .refl _
  callee found := within.callee found
  call_refused := by
    intro _ _ p name count fault rest _ refused
    by_cases unknown : fault.IsUnknownName
    · exact Run.kept_of_unknown unknown _
    · rw [within.refused refused unknown]
      exact .refl _
  call_enter _ _ _ body :=
    Run.KeptBy.inCall ((Run.KeptBy.refl _).bind fun _ => body.bind fun _ => .refl _)
  code_reference := by
    intro _ p word _
    unfold reference
    by_cases known : t.names word = true
    · rw [if_pos known, if_pos (within.names known)]
      exact .refl _
    · rw [if_neg known]
      have unknown : (Fault.undefinedVariable word).IsUnknownName := trivial
      exact Run.kept_of_unknown unknown _
  code_scopes := .refl _
  code_truthy _ := .refl _
  code_write _ _ := .refl _
  code_define _ _ _ := .refl _
  code_assign _ _ := .refl _
  code_inScope kept := kept.inScope

/-- **Further functions change nothing that runs.**  Where a call from outside, or a run of `main`,
does not fail because a name stands for nothing, it comes to the same in every larger table: the
same value or failure, trace and all, in the same state, which has the scopes, the containers, what
was written and what is left of the input. -/
theorem unchanged_in_larger_table {t u : FunctionTable} (within : t.Within u) (s : State) :
    (∀ name args position, ¬ (callFunction t name args position s).LacksName →
      callFunction u name args position s = callFunction t name args position s) ∧
    (¬ (runMain t s).LacksName → runMain u s = runMain t s) := by
  have each : ∀ name args position, (callFunction t name args position).KeptBy
      (callFunction u name args position) := by
    intro name args position
    have calls : Sites.anywhere.calls position args.length := trivial
    exact ((extension within).kept limit).apply name calls
  exact ⟨fun name args position => each name args position s, each "main" [] .start s⟩

/-- `fun main() { var key = "k" var pair = <key: null, other: key> return key }` -/
def keyed : FunctionTable where
  entries := [("main", ⟨"main", [], [
    .declare ⟨1, 18⟩ "key" (.string ⟨1, 24⟩ "k"),
    .declare ⟨1, 32⟩ "pair" (.dict ⟨1, 39⟩ [(.name "key", .null ⟨1, 45⟩),
      (.name "other", .name ⟨1, 58⟩ "key")]),
    .return ⟨1, 63⟩ (some (.name ⟨1, 70⟩ "key"))], ⟨1, 5⟩⟩)]

/-- Functions named like the variable and like the other key are not seen. -/
theorem keyed_in_larger_table :
    let f : Function := ⟨"f", [], [], ⟨1, 5⟩⟩
    let more := (keyed.add "key" f).add "other" f
    keyed.Within more ∧ (∃ s, runMain keyed (.start (.lines [])) = .done (.string "k") s) ∧
      ¬ (runMain keyed (.start (.lines []))).LacksName ∧
      runMain more (.start (.lines [])) = runMain keyed (.start (.lines [])) := by
  intro f more
  have within : keyed.Within more := by
    intro name f found
    exact FunctionTable.within_add _ _ _ name f (FunctionTable.within_add _ _ _ name f found)
  have ran : ∃ s, runMain keyed (.start (.lines [])) = .done (.string "k") s := ⟨_, rfl⟩
  have known : ¬ (runMain keyed (.start (.lines []))).LacksName := by
    obtain ⟨s, done⟩ := ran
    rintro ⟨failure, s', failed, -⟩
    rw [done] at failed
    cases failed
  exact ⟨within, ran, known, (unchanged_in_larger_table within _).2 known⟩

end Eval

end Script
