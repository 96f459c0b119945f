/-
# Script.Proofs.Eval.Division -- how work ends, and how its parts do

Work ends with a result, with a failure, or not at all, and how it ends has to do with how its parts
end (`Divided`).  If it gives a result, all of its parts give one: nothing catches a failure, and a
part that never ends keeps the whole from ending.  If it fails because a name stands for nothing, one
of its parts does, since the operations between them look no name up in vain (`Run.Silent`).  Calls
and variables begin by looking one up; they are divided so unless that is refused (`Refused`).
-/
import Script.Proofs.Access.Faults
import Script.Proofs.Eval.Ending
import Script.Proofs.Eval.Lockstep
import Script.Proofs.Eval.Task

namespace Script

set_option autoImplicit false

/-- The name stands for nothing. -/
def Fault.Misses (name : String) (fault : Fault) : Prop :=
  fault = .undefinedVariable name ∨ fault = .undefinedFunction name

/-- Some name stands for nothing. -/
def Fault.Unfound (fault : Fault) : Prop :=
  ∃ name, fault.Misses name

theorem Fault.unfound_name {fault : Fault} (unfound : fault.Unfound) : fault.category = .name := by
  obtain ⟨name, rfl | rfl⟩ := unfound <;> rfl

namespace Outcome

variable {α : Type}

/-- How the computation ended, if it did: with a failure or with a result. -/
def verdict? : Outcome α → Option (Option Failure)
  | done _ _ => some none
  | failed failure _ => some (some failure)
  | aborted | exhausted => none

theorem verdict?_mapState (f : State → State) (o : Outcome α) :
    (o.mapState f).verdict? = o.verdict? := by
  cases o <;> rfl

theorem verdict?_eq_result {o : Outcome α} : o.verdict? = some none ↔ ∃ a s, o = .done a s := by
  cases o <;> simp [verdict?]

/-- The failure, if the computation fails. -/
def failure? : Outcome α → Option Failure
  | failed failure _ => some failure
  | done _ _ | aborted | exhausted => none

theorem failure?_eq_some_iff {o : Outcome α} {failure : Failure} :
    o.failure? = some failure ↔ o.verdict? = some (some failure) := by
  cases o <;> simp [failure?, verdict?]

theorem failure?_eq_some {o : Outcome α} {failure : Failure} :
    o.failure? = some failure ↔ ∃ s, o = .failed failure s := by
  cases o <;> simp [failure?]

end Outcome

namespace Run

variable {α β : Type}

/-- If the computation fails, it is not because a name stands for nothing. -/
def Silent (x : Run α) : Prop :=
  ∀ s, ∀ failure ∈ (x s).failure?, ¬ failure.fault.Unfound

theorem Quiet.silent {x : Run α} (quiet : x.Quiet) : x.Silent := by
  intro s failure failed
  obtain ⟨a, s', done, -⟩ := quiet s
  rw [done] at failed
  cases failed

theorem silent_pure (a : α) : (pure a : Run α).Silent :=
  (quiet_pure a).silent

theorem silent_fail {fault : Fault} (other : fault.category ≠ .name) (p : Position) :
    (fail p fault : Run α).Silent := by
  rintro s failure ⟨⟩ unfound
  exact other (Fault.unfound_name unfound)

theorem silent_attempt {operation : Store → Attempt α} (p : Position)
    (confined : ∀ store, (operation store).Confined) : (attempt p operation).Silent := by
  intro s failure failed unfound
  unfold attempt at failed
  split at failed
  · cases failed
  · rename_i fault found
    cases failed
    have name : fault.category = .name := Fault.unfound_name unfound
    rcases confined s.store fault found with type | bounds
    · rw [name] at type
      cases type
    · rw [name] at bounds
      cases bounds
  · cases failed
  · cases failed

/-- A sequence fails as its first part does or, after that has a result, as its second. -/
theorem failure?_bind {x : Run α} {f : α → Run β} {s : State} {failure : Failure}
    (failed : ((x >>= f) s).failure? = some failure) :
    (x s).failure? = some failure ∨
      ∃ a s', x s = .done a s' ∧ (f a s').failure? = some failure := by
  obtain ⟨last, failed⟩ := Outcome.failure?_eq_some.1 failed
  rcases bind_failed failed with first | ⟨a, s', done, second⟩
  · exact .inl (Outcome.failure?_eq_some.2 ⟨last, first⟩)
  · exact .inr ⟨a, s', done, Outcome.failure?_eq_some.2 ⟨last, second⟩⟩

/-- A sequence has a result if its first part has one and the second one after it. -/
theorem result_bind {x : Run α} {f : α → Run β} {s : State}
    (given : ((x >>= f) s).verdict? = some none) :
    ∃ a s', x s = .done a s' ∧ (f a s').verdict? = some none := by
  change (Run.bind x f s).verdict? = some none at given
  unfold Run.bind at given
  cases first : x s with
  | done a s' =>
      rw [first] at given
      exact ⟨a, s', rfl, given⟩
  | _ =>
      rw [first] at given
      cases given

theorem Silent.bind {x : Run α} {f : α → Run β} (first : x.Silent) (second : ∀ a, (f a).Silent) :
    (x >>= f).Silent := by
  intro s failure failed
  rcases failure?_bind failed with earlier | ⟨a, s', -, later⟩
  · exact first s failure earlier
  · exact second a s' failure later

theorem silent_define (p : Position) (name : String) (value : Value) :
    (define p name value).Silent := by
  intro s failure failed
  unfold define Scopes.define at failed
  split at failed
  · cases failed
  · rename_i fault found
    cases failed
    split at found <;> cases found
    rintro ⟨_, same | same⟩ <;> cases same

theorem silent_assign (name : String) (value : Value) : (assign name value).Silent :=
  fun _ _ failed => nomatch failed

end Run

namespace Eval

open Run

/-! ## Operations -/

/-- A name stands for something, or the variable is refused. -/
theorem name_cases (t : FunctionTable) (p : Position) (word : String) (s : State) :
    (∃ v, name t p word s = .done v s) ∨
      s.scopes.lookup word = none ∧ t.names word = false ∧
        name t p word s = .failed (s.calls.failure (.undefinedVariable word) p) s := by
  have looked : Run.scopes s = .done s.scopes s := rfl
  unfold Eval.name
  rw [Run.bind_done looked]
  cases s.scopes.lookup word with
  | some v => exact .inl ⟨v, rfl⟩
  | none =>
      cases known : t.names word with
      | true => exact .inl ⟨.function word, rfl⟩
      | false => exact .inr ⟨rfl, rfl, rfl⟩

theorem silent_entryKey (p : Position) (key : EntryKey) : (entryKey p key).Silent := by
  cases key with
  | literal text => exact silent_pure _
  | name word =>
      refine quiet_scopes.silent.bind fun scopes => ?_
      split
      · exact silent_pure _
      · exact silent_pure _
      · refine (silent_attempt p fun s => s.confined_render _).bind fun got => ?_
        exact silent_fail (by rintro ⟨⟩) p

theorem silent_callbackName (p : Position) (callback : Value) :
    (callbackName p callback).Silent := by
  unfold callbackName
  split
  · exact silent_pure _
  · exact silent_pure _
  · exact silent_fail (by rintro ⟨⟩) p

theorem silent_bindParams (p : Position) :
    ∀ (params : List String) (args : List Value), (bindParams p params args).Silent
  | [], _ => silent_pure ()
  | _ :: _, [] => silent_pure ()
  | param :: params, value :: values =>
      (silent_define p param value).bind fun _ => silent_bindParams p params values

theorem silent_arity (p : Position) (i : Intrinsic) : (fail p i.arityFault : Run Value).Silent :=
  silent_fail (by rintro ⟨⟩) p

theorem silent_intrinsic {t : FunctionTable} {p : Position} {i : Intrinsic} {args : List Value}
    (other : i ≠ .map) (steps : Nat) : (Eval.intrinsic t p i args (steps + 1)).Silent := by
  rw [Eval.intrinsic.eq_def]
  dsimp only
  split
  · exact (quiet_writeLine _).silent.bind fun _ => silent_pure _
  · refine (silent_attempt p fun s => s.confined_render _).bind fun line => ?_
    exact (quiet_writeLine line).silent.bind fun _ => silent_pure _
  · exact quiet_readLine.silent.bind fun line => silent_pure _
  · exact (silent_attempt p fun s => s.confined_sizeOf _).bind fun size => silent_pure _
  · exact absurd rfl other
  · exact (silent_attempt p fun s => s.confined_coerce _).bind fun x => silent_pure _
  · exact (silent_attempt p fun s => s.confined_textOf _).bind fun text => silent_pure _
  · exact (silent_attempt p fun s => s.confined_typeOf _).bind fun tag => silent_pure _
  · exact silent_arity p _

/-! ## The parts of work -/

/-- How the work ended, if it did. -/
def Work.verdict? (t : FunctionTable) (steps : Nat) (s : State) : Work → Option (Option Failure)
  | .expr e => (Eval.expr t e steps s).verdict?
  | .exprs es => (Eval.exprs t es steps s).verdict?
  | .dictEntries p entries filled => (Eval.dictEntries t p entries filled steps s).verdict?
  | .call p callee args => (Eval.call t p callee args steps s).verdict?
  | .apply p name args => (Eval.apply t p name args steps s).verdict?
  | .invoke p name f args => (Eval.invoke t p name f args steps s).verdict?
  | .intrinsic p i args => (Eval.intrinsic t p i args steps s).verdict?
  | .mapItems p name items => (Eval.mapItems t p name items steps s).verdict?
  | .mapText p name cs joined => (Eval.mapText t p name cs joined steps s).verdict?
  | .statement st => (Eval.statement t st steps s).verdict?
  | .rounds condition step body => (Eval.rounds t condition step body steps s).verdict?
  | .statements body => (Eval.statements t body steps s).verdict?

/-- What ends so has these parts: if it fails because a name stands for nothing, one of them does,
and if it gives a result, they all do. -/
structure Divided (t : FunctionTable) (steps : Nat) (verdict? : Option (Option Failure))
    (parts : List (Work × State)) : Prop where
  blames : ∀ failure, verdict? = some (some failure) → failure.fault.Unfound →
    ∃ part ∈ parts, part.1.verdict? t steps part.2 = some (some failure)
  needs : verdict? = some none → ∀ part ∈ parts, part.1.verdict? t steps part.2 = some none

section

variable {t : FunctionTable} {steps : Nat} {α β : Type} {s opened : State} {w : Work}
  {x : Run α} {f : α → Run β} {verdict? : Option (Option Failure)}
  {next : α → State → List (Work × State)}

theorem divided_silent (silent : x.Silent) : Divided t steps (x s).verdict? [] where
  blames failure found unfound :=
    absurd unfound (silent s failure (Outcome.failure?_eq_some_iff.2 found))
  needs _ _ member := absurd member List.not_mem_nil

theorem divided_done {a : α} {s' : State} (done : x s = .done a s') :
    Divided t steps (x s).verdict? [] where
  blames failure found _ := by
    rw [done] at found
    cases found
  needs _ _ member := absurd member List.not_mem_nil

theorem divided_last (own : w.verdict? t steps opened = verdict?) :
    Divided t steps verdict? [(w, opened)] where
  blames _ found _ := ⟨(w, opened), List.mem_singleton.2 rfl, own.trans found⟩
  needs found := List.forall_mem_singleton.2 (own.trans found)

theorem divided_bind {earlier : List (Work × State)}
    (first : Divided t steps (x s).verdict? earlier)
    (second : ∀ a s', Divided t steps (f a s').verdict? (next a s')) :
    Divided t steps ((x >>= f) s).verdict? (earlier ++ (x s).andThen next) where
  blames failure found unfound := by
    rcases Run.failure?_bind (Outcome.failure?_eq_some_iff.2 found) with
      failed | ⟨a, s', done, failed⟩
    · obtain ⟨part, member, same⟩ :=
        first.blames failure (Outcome.failure?_eq_some_iff.1 failed) unfound
      exact ⟨part, List.mem_append_left _ member, same⟩
    · obtain ⟨part, member, same⟩ :=
        (second a s').blames failure (Outcome.failure?_eq_some_iff.1 failed) unfound
      refine ⟨part, List.mem_append_right _ ?_, same⟩
      rw [done]
      exact member
  needs found := by
    obtain ⟨a, s', done, later⟩ := Run.result_bind found
    refine List.forall_mem_append.2 ⟨first.needs (by rw [done]; rfl), ?_⟩
    rw [done]
    exact (second a s').needs later

/-- A part, and then what follows from its result. -/
theorem divided_work (own : w.verdict? t steps opened = (x s).verdict?)
    (second : ∀ a s', Divided t steps (f a s').verdict? (next a s')) :
    Divided t steps ((x >>= f) s).verdict? ((w, opened) :: (x s).andThen next) :=
  divided_bind (divided_last own) second

/-- An operation, and then what follows from its result. -/
theorem divided_op (silent : x.Silent)
    (second : ∀ a s', Divided t steps (f a s').verdict? (next a s')) :
    Divided t steps ((x >>= f) s).verdict? ((x s).andThen next) :=
  divided_bind (divided_silent silent) second

/-- A single part, and then operations on its result. -/
theorem divided_work_only (own : w.verdict? t steps opened = (x s).verdict?)
    (silent : ∀ a, (f a).Silent) : Divided t steps ((x >>= f) s).verdict? [(w, opened)] := by
  have divided : Divided t steps ((x >>= f) s).verdict?
      ((w, opened) :: (x s).andThen fun _ _ => []) :=
    divided_work own fun a s' => divided_silent (silent a)
  have none : (x s).andThen (fun _ _ => ([] : List (Work × State))) = [] := by
    cases x s <;> rfl
  rwa [none] at divided

/-- Opening and closing a scope makes no difference to how a block ends. -/
theorem verdict?_inScope (t : FunctionTable) (steps : Nat) (body : List Stmt) (s : State) :
    (Work.statements body).verdict? t steps s.opened =
      (Run.inScope (Eval.statements t body steps) s).verdict? :=
  (Outcome.verdict?_mapState _ _).symm

/-! ## One step of each kind of work -/

variable (t) (steps) (s)

theorem divided_expr (e : Expr)
    (found : ∀ p word, e = .name p word → ∃ v, name t p word s = .done v s) :
    Divided t steps ((Work.expr e).verdict? t (steps + 1) s) ((Work.expr e).parts t steps s) := by
  change Divided t steps (Eval.expr t e (steps + 1) s).verdict? _
  cases e with
  | number p x | string p text | bool p b | null p | typeName p tag =>
      simp only [Eval.expr]
      exact divided_silent (silent_pure _)
  | name p word =>
      simp only [Eval.expr]
      obtain ⟨v, done⟩ := found p word rfl
      exact divided_done done
  | list p items =>
      simp only [Eval.expr]
      exact divided_work_only rfl fun values => (quiet_make _).silent
  | dict p entries =>
      simp only [Eval.expr]
      exact divided_work_only rfl fun filled => (quiet_make _).silent
  | assign p word value =>
      simp only [Eval.expr]
      refine divided_work_only rfl fun v => ?_
      exact (silent_assign word v).bind fun _ => silent_pure v
  | binary p op left right =>
      simp only [Eval.expr]
      refine divided_work rfl fun v s₁ => divided_work_only rfl fun w => ?_
      refine (silent_attempt p fun s => s.confined_binary op v w).bind fun product => ?_
      exact (quiet_make _).silent
  | unary p op operand =>
      simp only [Eval.expr]
      refine divided_work_only rfl fun v => ?_
      exact silent_attempt p fun s => s.confined_unary op v
  | index p target i =>
      simp only [Eval.expr]
      refine divided_work rfl fun v s₁ => divided_work_only rfl fun i => ?_
      exact silent_attempt p fun s => s.confined_indexGet v i
  | setIndex p target i value =>
      simp only [Eval.expr]
      refine divided_work rfl fun v s₁ => divided_work rfl fun i s₂ => ?_
      refine divided_work_only rfl fun value => ?_
      refine (silent_attempt p fun s => s.confined_place v i).bind fun place => ?_
      exact (quiet_write place value).silent.bind fun _ => silent_pure value
  | field p target word =>
      simp only [Eval.expr]
      refine divided_work_only rfl fun v => ?_
      exact silent_attempt p fun s => s.confined_fieldGet v word
  | method p target word args =>
      simp only [Eval.expr]
      refine divided_work_only rfl fun v => ?_
      exact silent_fail (by rintro ⟨⟩) p
  | call p callee args =>
      simp only [Eval.expr]
      exact divided_last (w := .call p callee args) rfl

theorem divided_exprs (es : List Expr) :
    Divided t steps ((Work.exprs es).verdict? t (steps + 1) s)
      ((Work.exprs es).parts t steps s) := by
  change Divided t steps (Eval.exprs t es (steps + 1) s).verdict? _
  cases es with
  | nil =>
      simp only [Eval.exprs]
      exact divided_silent (silent_pure _)
  | cons e rest =>
      simp only [Eval.exprs]
      refine divided_work rfl fun v s₁ => divided_work_only rfl fun values => ?_
      exact silent_pure _

theorem divided_dictEntries (p : Position) (entries : List (EntryKey × Expr))
    (filled : Dict Value) :
    Divided t steps ((Work.dictEntries p entries filled).verdict? t (steps + 1) s)
      ((Work.dictEntries p entries filled).parts t steps s) := by
  change Divided t steps (Eval.dictEntries t p entries filled (steps + 1) s).verdict? _
  cases entries with
  | nil =>
      simp only [Eval.dictEntries]
      exact divided_silent (silent_pure _)
  | cons entry rest =>
      obtain ⟨key, e⟩ := entry
      simp only [Eval.dictEntries]
      refine divided_op (silent_entryKey p key) fun key s₁ => divided_work rfl fun v s₂ => ?_
      exact divided_last (w := .dictEntries p rest (filled.insert key v)) rfl

theorem divided_invoke (p : Position) (name : String) (f : Callee) (args : List Value) :
    Divided t steps ((Work.invoke p name f args).verdict? t (steps + 1) s)
      ((Work.invoke p name f args).parts t steps s) := by
  change Divided t steps (Eval.invoke t p name f args (steps + 1) s).verdict? _
  cases f with
  | intrinsic i =>
      simp only [Eval.invoke]
      exact divided_last (w := .intrinsic p i args) rfl
  | user f =>
      simp only [Eval.invoke]
      unfold Run.inCall
      rw [Outcome.verdict?_mapState]
      refine divided_op (silent_bindParams p f.params args) fun _ s₁ => ?_
      exact divided_work_only rfl fun flow => silent_pure _

theorem divided_intrinsic (p : Position) (i : Intrinsic) (args : List Value) :
    Divided t steps ((Work.intrinsic p i args).verdict? t (steps + 1) s)
      ((Work.intrinsic p i args).parts t steps s) := by
  by_cases mapping : i = .map
  · subst mapping
    change Divided t steps (Eval.intrinsic t p .map args (steps + 1) s).verdict? _
    rcases args with _ | ⟨v, _ | ⟨callback, _ | ⟨more, rest⟩⟩⟩
    case cons.cons.nil =>
      have named := silent_callbackName p callback
      simp only [Eval.intrinsic]
      cases v with
      | list a =>
          refine divided_op named fun name s₁ => ?_
          exact divided_work_only (w := .mapItems p name (s₁.store.items a).toList)
            (x := Eval.mapItems t p name (s₁.store.items a).toList steps) rfl fun results =>
              (quiet_make _).silent
      | string text =>
          refine divided_op named fun name s₁ => ?_
          exact divided_work_only (w := .mapText p name text.toList "") rfl fun joined =>
            silent_pure _
      | _ =>
          refine divided_silent (named.bind fun name => ?_)
          exact silent_fail (by rintro ⟨⟩) p
    case nil => exact divided_silent (silent_arity p .map)
    all_goals
      simp only [Eval.intrinsic]
      cases v <;> exact divided_silent (silent_arity p .map)
  · rw [Work.parts_intrinsic mapping]
    exact divided_silent (silent_intrinsic mapping steps)

theorem divided_mapItems (p : Position) (name : String) (items : List Value) :
    Divided t steps ((Work.mapItems p name items).verdict? t (steps + 1) s)
      ((Work.mapItems p name items).parts t steps s) := by
  change Divided t steps (Eval.mapItems t p name items (steps + 1) s).verdict? _
  cases items with
  | nil =>
      simp only [Eval.mapItems]
      exact divided_silent (silent_pure _)
  | cons item rest =>
      simp only [Eval.mapItems]
      refine divided_work (w := .apply p name [item]) rfl fun v s₁ => ?_
      exact divided_work_only (w := .mapItems p name rest) rfl fun values => silent_pure _

theorem divided_mapText (p : Position) (name : String) (cs : List Char) (joined : String) :
    Divided t steps ((Work.mapText p name cs joined).verdict? t (steps + 1) s)
      ((Work.mapText p name cs joined).parts t steps s) := by
  change Divided t steps (Eval.mapText t p name cs joined (steps + 1) s).verdict? _
  cases cs with
  | nil =>
      simp only [Eval.mapText]
      exact divided_silent (silent_pure _)
  | cons c rest =>
      simp only [Eval.mapText]
      refine divided_work (w := .apply p name [.string (String.singleton c)]) rfl fun v s₁ => ?_
      refine divided_op (silent_attempt p fun s => s.confined_render v) fun text s₂ => ?_
      exact divided_last (w := .mapText p name rest (joined ++ text)) rfl

theorem divided_statement (st : Stmt) :
    Divided t steps ((Work.statement st).verdict? t (steps + 1) s)
      ((Work.statement st).parts t steps s) := by
  have scope : ∀ (body : List Stmt) (s : State), Divided t steps
      (Run.inScope (Eval.statements t body steps) s).verdict? [(.statements body, s.opened)] :=
    fun body s => divided_last (verdict?_inScope t steps body s)
  change Divided t steps (Eval.statement t st (steps + 1) s).verdict? _
  cases st with
  | declare p word value =>
      simp only [Eval.statement]
      refine divided_work_only rfl fun v => ?_
      exact (silent_define p word v).bind fun _ => silent_pure _
  | expr e =>
      simp only [Eval.statement]
      exact divided_work_only rfl fun v => silent_pure _
  | «return» p value =>
      cases value with
      | none =>
          simp only [Eval.statement]
          exact divided_silent (silent_pure _)
      | some e =>
          simp only [Eval.statement]
          exact divided_work_only rfl fun v => silent_pure _
  | branch p condition yes no =>
      simp only [Eval.statement]
      refine divided_work rfl fun v s₁ => ?_
      rw [Run.truthy_bind]
      cases s₁.store.truthy v with
      | true => exact scope yes s₁
      | false =>
          cases no with
          | none => exact divided_silent (silent_pure _)
          | some no => exact scope no s₁
  | loop p start condition step body =>
      simp only [Eval.statement]
      unfold Run.inScope
      rw [Outcome.verdict?_mapState]
      have rounds : ∀ s : State, Divided t steps
          (Eval.rounds t condition step body steps s).verdict?
          [(.rounds condition step body, s)] :=
        fun s => divided_last rfl
      cases start with
      | nothing => exact rounds s.opened
      | declare q word value =>
          refine divided_work rfl fun v s₁ => ?_
          exact divided_op (silent_define q word v) fun _ s₂ => rounds s₂
      | expr e => exact divided_work rfl fun v s₁ => rounds s₁
  | block p body =>
      simp only [Eval.statement]
      exact scope body s

theorem divided_round (condition step : Option Expr) (body : List Stmt) :
    Divided t steps
      (Eval.round t step body steps (Eval.rounds t condition step body steps) s).verdict?
      (Work.roundParts t steps condition step body s) := by
  refine divided_work (verdict?_inScope t steps body s) fun flow s₁ => ?_
  have rounds : ∀ s : State, Divided t steps (Eval.rounds t condition step body steps s).verdict?
      [(.rounds condition step body, s)] :=
    fun s => divided_last rfl
  cases flow with
  | returned v => exact divided_silent (silent_pure _)
  | next =>
      cases step with
      | none => exact rounds s₁
      | some e => exact divided_work rfl fun v s₂ => rounds s₂

theorem divided_rounds (condition step : Option Expr) (body : List Stmt) :
    Divided t steps ((Work.rounds condition step body).verdict? t (steps + 1) s)
      ((Work.rounds condition step body).parts t steps s) := by
  change Divided t steps (Eval.rounds t condition step body (steps + 1) s).verdict? _
  rw [Eval.rounds.eq_def]
  dsimp only
  cases condition with
  | none => exact divided_round t steps s none step body
  | some e =>
      refine divided_work rfl fun v s₁ => ?_
      rw [Run.truthy_bind]
      cases s₁.store.truthy v with
      | true => exact divided_round t steps s₁ (some e) step body
      | false => exact divided_silent (silent_pure _)

theorem divided_statements (body : List Stmt) :
    Divided t steps ((Work.statements body).verdict? t (steps + 1) s)
      ((Work.statements body).parts t steps s) := by
  change Divided t steps (Eval.statements t body (steps + 1) s).verdict? _
  cases body with
  | nil =>
      simp only [Eval.statements]
      exact divided_silent (silent_pure _)
  | cons first rest =>
      simp only [Eval.statements]
      refine divided_work rfl fun flow s₁ => ?_
      cases flow with
      | returned v => exact divided_silent (silent_pure _)
      | next => exact divided_last (w := .statements rest) rfl

theorem divided_call {p : Position} {callee : String} {args : List Expr} {f : Callee}
    (found : t.callee (s.scopes.target callee) args.length = .ok f) :
    Divided t steps ((Work.call p callee args).verdict? t (steps + 1) s)
      ((Work.call p callee args).parts t steps s) := by
  simp only [Work.verdict?, Eval.call, Work.parts]
  rw [Run.bind_done (show Run.scopes s = .done s.scopes s from rfl), found,
    Run.bind_done (show Run.check p (.ok f) s = .done f s from rfl)]
  exact divided_work rfl fun values s₁ =>
    divided_last (w := .invoke p (s.scopes.target callee) f values) rfl

theorem divided_apply {p : Position} {name : String} {args : List Value} {f : Callee}
    (found : t.callee name args.length = .ok f) :
    Divided t steps ((Work.apply p name args).verdict? t (steps + 1) s)
      ((Work.apply p name args).parts t steps s) := by
  simp only [Work.verdict?, Eval.apply, Work.parts]
  rw [found, Run.bind_done (show Run.check p (.ok f) s = .done f s from rfl)]
  exact divided_last rfl

end

/-- The work begins by looking up a name, and fails for that. -/
inductive Refused (t : FunctionTable) : Work → State → Failure → Prop
  | name {p : Position} {word : String} {s : State} (unbound : s.scopes.lookup word = none)
      (missing : t.names word = false) :
      Refused t (.expr (.name p word)) s (s.calls.failure (.undefinedVariable word) p)
  | call {p : Position} {callee : String} {args : List Expr} {s : State} {fault : Fault}
      (refused : t.callee (s.scopes.target callee) args.length = .error fault) :
      Refused t (.call p callee args) s (s.calls.failure fault p)
  | apply {p : Position} {name : String} {args : List Value} {s : State} {fault : Fault}
      (refused : t.callee name args.length = .error fault) :
      Refused t (.apply p name args) s (s.calls.failure fault p)

/-- How work ends has to do with how its parts end, unless it fails for what it looks up. -/
theorem divided_or_refused (t : FunctionTable) (steps : Nat) (s : State) (w : Work) :
    Divided t steps (w.verdict? t (steps + 1) s) (w.parts t steps s) ∨
      ∃ failure, Refused t w s failure ∧ w.verdict? t (steps + 1) s = some (some failure) := by
  cases w with
  | expr e =>
      by_cases named : ∃ p word, e = .name p word
      · obtain ⟨p, word, rfl⟩ := named
        rcases name_cases t p word s with found | ⟨unbound, missing, failed⟩
        · refine .inl (divided_expr t steps s _ ?_)
          rintro _ _ ⟨⟩
          exact found
        · refine .inr ⟨_, .name unbound missing, ?_⟩
          simp only [Work.verdict?, Eval.expr]
          rw [failed]
          rfl
      · exact .inl (divided_expr t steps s e fun p word same => absurd ⟨p, word, same⟩ named)
  | call p callee args =>
      cases found : t.callee (s.scopes.target callee) args.length with
      | ok f => exact .inl (divided_call t steps s found)
      | error fault =>
          refine .inr ⟨_, .call found, ?_⟩
          simp only [Work.verdict?, Eval.call]
          rw [Run.bind_done (show Run.scopes s = .done s.scopes s from rfl), found]
          rfl
  | apply p name args =>
      cases found : t.callee name args.length with
      | ok f => exact .inl (divided_apply t steps s found)
      | error fault =>
          refine .inr ⟨_, .apply found, ?_⟩
          simp only [Work.verdict?, Eval.apply]
          rw [found]
          rfl
  | exprs es => exact .inl (divided_exprs t steps s es)
  | dictEntries p entries filled => exact .inl (divided_dictEntries t steps s p entries filled)
  | invoke p name f args => exact .inl (divided_invoke t steps s p name f args)
  | intrinsic p i args => exact .inl (divided_intrinsic t steps s p i args)
  | mapItems p name items => exact .inl (divided_mapItems t steps s p name items)
  | mapText p name cs joined => exact .inl (divided_mapText t steps s p name cs joined)
  | statement st => exact .inl (divided_statement t steps s st)
  | rounds condition step body => exact .inl (divided_rounds t steps s condition step body)
  | statements body => exact .inl (divided_statements t steps s body)

end Eval

end Script
