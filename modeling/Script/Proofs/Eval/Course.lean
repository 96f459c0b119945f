/-
# Script.Proofs.Eval.Course -- what a run keeps up at every moment

What one step of the evaluator does is the `Course` of a piece of work: each of its parts
begins in a fine state that the store has grown to, and so does whatever is left of the work
once the part has ended.  A part without an end is the last that happens.  Every kind of work
takes such a course when its parts end safely (`Upkeep.course`).

`Upkeep.history_kept` is the induction over the evaluator: at every moment of the history of any
work the store is sound and all values there are fine, and from each moment to every later one
the store has grown.
-/
import Script.Proofs.Eval.Upkeep

namespace Script

set_option autoImplicit false

namespace Eval

namespace Upkeep

variable {t : FunctionTable} (u : Upkeep t)

/-- Whatever work can begin ends safely if it ends in so many steps. -/
def Steady (steps : Nat) : Prop :=
  ∀ {w : Work} {s : State}, u.Ready w s → u.Safe s.store (w.ending t steps s)

/-- From a store on, the parts happen one after the other and then comes the ending. -/
inductive Course (steps : Nat) (ending : Option Moment) : Store → List (Work × State) → Prop
  | ends {store : Store} (safe : u.Safe store ending) : Course steps ending store []
  | part {store : Store} {w : Work} {s : State} {rest : List (Work × State)}
      (grown : u.grows store s.store) (ready : u.Ready w s)
      (next : ∀ m ∈ w.ending t steps s, Course steps ending m.state.store rest)
      (stuck : w.ending t steps s = none → rest = [] ∧ ending = none) :
      Course steps ending store ((w, s) :: rest)

variable {u} {steps : Nat} {α β : Type} {s s' : State}

/-! ## Courses -/

section

variable {ending : Option Moment} {w : Work} {store store' : Store}
  {rest : List (Work × State)} {x : Run α} {f : α → Run β} {toValues : α → List Value}
  {toValues' : β → List Value} {next : α → State → List (Work × State)}

theorem Course.since (grown : u.grows store store') (course : u.Course steps ending store' rest) :
    u.Course steps ending store rest := by
  cases course with
  | ends safe =>
      refine .ends fun m ended => ?_
      obtain ⟨further, fine⟩ := safe m ended
      exact ⟨u.grows_trans grown further, fine⟩
  | part further ready next stuck =>
      exact .part (u.grows_trans grown further) ready next stuck

/-- Closing what was opened changes neither the store nor, for the worse, what is bound. -/
theorem Course.closed {o : Outcome α} {close : State → State}
    (same : ∀ s, (close s).store = s.store)
    (fewer : ∀ {values s}, u.Fine values s → u.Fine values (close s))
    (course : u.Course steps (o.moment? toValues) store rest) :
    u.Course steps ((o.mapState close).moment? toValues) store rest := by
  have safe : ∀ {store}, u.Safe store (o.moment? toValues) →
      u.Safe store ((o.mapState close).moment? toValues) := by
    intro store safe
    cases o with
    | done a s =>
        obtain ⟨grown, fine⟩ := safe _ rfl
        exact safe_done ((same s).symm ▸ grown) (fewer fine)
    | failed failure s =>
        obtain ⟨grown, fine⟩ := safe _ rfl
        rintro m ⟨⟩
        exact ⟨(same s).symm ▸ grown, fewer fine⟩
    | aborted => exact safe_none _
    | exhausted => exact safe_none _
  induction course with
  | ends safe' => exact .ends (safe safe')
  | part grown ready next stuck ih =>
      refine .part grown ready ih fun none => ?_
      obtain ⟨alone, endless⟩ := stuck none
      refine ⟨alone, ?_⟩
      cases o <;> cases endless <;> rfl

/-- An operation, and then what follows from its result. -/
theorem course_op (first : u.Safe s.store ((x s).moment? toValues))
    (second : ∀ a s', x s = .done a s' → u.grows s.store s'.store → u.Fine (toValues a) s' →
      u.Course steps ((f a s').moment? toValues') s'.store (next a s')) :
    u.Course steps (((x >>= f) s).moment? toValues') s.store ((x s).andThen next) := by
  change u.Course steps ((Run.bind x f s).moment? toValues') s.store _
  unfold Run.bind
  cases done : x s with
  | done a s' =>
      rw [done] at first
      obtain ⟨grown, fine⟩ := first _ rfl
      exact (second a s' done grown fine).since grown
  | failed failure s' =>
      rw [done] at first
      refine .ends ?_
      rintro m ⟨⟩
      exact first _ rfl
  | aborted => exact .ends (safe_none _)
  | exhausted => exact .ends (safe_none _)

/-- A part in a scope of its own, and then what follows from its result. -/
theorem course_work_in {opened : State} {inner : Outcome α} {close : State → State}
    (steady : u.Steady steps) (ready : u.Ready w opened) (before : opened.store = s.store)
    (own : w.ending t steps opened = inner.moment? toValues) (closed : x s = inner.mapState close)
    (same : ∀ s, (close s).store = s.store)
    (fewer : ∀ {values s}, u.Fine values s → u.Fine values (close s))
    (second : ∀ a s', x s = .done a s' → u.grows s.store s'.store → u.Fine (toValues a) s' →
      u.Course steps ((f a s').moment? toValues') s'.store (next a s')) :
    u.Course steps (((x >>= f) s).moment? toValues') s.store
      ((w, opened) :: (x s).andThen next) := by
  have safe := steady ready
  rw [own, before] at safe
  change u.Course steps ((Run.bind x f s).moment? toValues') s.store _
  unfold Run.bind
  have begins : u.grows s.store opened.store := before ▸ u.grows_refl _
  cases inner with
  | done a s' =>
      have done : x s = .done a (close s') := closed
      rw [done]
      obtain ⟨grown, fine⟩ := safe _ rfl
      have further := second a (close s') done ((same s').symm ▸ grown) (fewer fine)
      rw [same] at further
      refine .part begins ready (fun m ended => ?_) (fun none => ?_)
      · rw [own] at ended
        cases ended
        exact further
      · rw [own] at none
        cases none
  | failed failure s' =>
      have done : x s = .failed failure (close s') := closed
      rw [done]
      obtain ⟨grown, fine⟩ := safe _ rfl
      refine .part begins ready (fun m ended => .ends ?_) (fun none => ?_)
      · rw [own] at ended
        cases ended
        rintro m ⟨⟩
        exact ⟨(same s').symm ▸ u.grows_refl _, fewer fine⟩
      · rw [own] at none
        cases none
  | aborted =>
      have done : x s = .aborted := closed
      rw [done]
      exact .part begins ready (fun m ended => by rw [own] at ended; cases ended)
        (fun _ => ⟨rfl, rfl⟩)
  | exhausted =>
      have done : x s = .exhausted := closed
      rw [done]
      exact .part begins ready (fun m ended => by rw [own] at ended; cases ended)
        (fun _ => ⟨rfl, rfl⟩)

/-- A part, and then what follows from its result. -/
theorem course_work (steady : u.Steady steps) (ready : u.Ready w s)
    (own : w.ending t steps s = (x s).moment? toValues)
    (second : ∀ a s', x s = .done a s' → u.grows s.store s'.store → u.Fine (toValues a) s' →
      u.Course steps ((f a s').moment? toValues') s'.store (next a s')) :
    u.Course steps (((x >>= f) s).moment? toValues') s.store ((w, s) :: (x s).andThen next) := by
  have plain : x s = (x s).mapState id := by cases x s <;> rfl
  exact course_work_in steady ready rfl own plain (fun _ => rfl) id second

/-- A single part, and then operations on its result. -/
theorem course_work_only (steady : u.Steady steps) (ready : u.Ready w s)
    (own : w.ending t steps s = (x s).moment? toValues)
    (second : ∀ a s', x s = .done a s' → u.grows s.store s'.store → u.Fine (toValues a) s' →
      u.Safe s'.store ((f a s').moment? toValues')) :
    u.Course steps (((x >>= f) s).moment? toValues') s.store [(w, s)] := by
  have course : u.Course steps (((x >>= f) s).moment? toValues') s.store
      ((w, s) :: (x s).andThen fun _ _ => []) :=
    course_work steady ready own fun a s' done grown fine => .ends (second a s' done grown fine)
  have none : (x s).andThen (fun _ _ => ([] : List (Work × State))) = [] := by
    cases x s <;> rfl
  rwa [none] at course

/-- A single part with which the work ends. -/
theorem course_last (steady : u.Steady steps) (ready : u.Ready w s) :
    u.Course steps (w.ending t steps s) s.store [(w, s)] := by
  have safe := steady ready
  refine .part (u.grows_refl _) ready (fun m ended => .ends ?_) fun none => ⟨rfl, none⟩
  intro m' same
  obtain rfl : m = m' := Option.some.inj (ended.symm.trans same)
  exact ⟨u.grows_refl _, (safe m ended).2⟩

end

/-! ## One step of each kind of work -/

section

variable (steady : u.Steady steps)

include steady

theorem course_expr {e : Expr} (fine : u.Fine [] s) (code : u.Permits e.parts) :
    u.Course steps ((Eval.expr t e (steps + 1) s).moment? fun v => [v]) s.store
      ((Work.expr e).parts t steps s) := by
  cases e with
  | number p x =>
      simp only [Eval.expr]
      exact .ends (safe_pure (fine.one (u.fine_plain (.number x))))
  | string p text =>
      simp only [Eval.expr]
      exact .ends (safe_pure (fine.one (u.fine_plain (.string text))))
  | bool p b =>
      simp only [Eval.expr]
      exact .ends (safe_pure (fine.one (u.fine_plain (.bool b))))
  | null p =>
      simp only [Eval.expr]
      exact .ends (safe_pure (fine.one (u.fine_plain .null)))
  | typeName p tag =>
      simp only [Eval.expr]
      exact .ends (safe_pure (fine.one (u.fine_plain (.typeName tag))))
  | name p word =>
      simp only [Eval.expr]
      exact .ends (safe_name fine p word)
  | list p items =>
      simp only [Expr.parts, permits_cons] at code
      simp only [Eval.expr]
      refine course_work_only steady ⟨fine, code.2⟩ rfl fun values s' _ _ fine => ?_
      exact safe_make fine (u.newList fine.sound fine.atHand)
  | dict p entries =>
      simp only [Expr.parts, permits_cons] at code
      simp only [Eval.expr]
      refine course_work_only steady ⟨fine, code.2⟩ rfl fun filled s' _ _ fine => ?_
      exact safe_make fine (u.newDict fine.sound (List.forall_mem_map.1 fine.atHand))
  | assign p word value =>
      simp only [Expr.parts, permits_cons] at code
      simp only [Eval.expr]
      refine course_work_only steady ⟨fine, code.2⟩ rfl fun v s' _ _ fine => ?_
      exact safe_bind (safe_assign fine word fine.value) fun _ _ _ _ fine => safe_pure fine
  | binary p op left right =>
      simp only [Expr.parts, permits_cons, permits_append] at code
      simp only [Eval.expr]
      refine course_work steady ⟨fine, code.2.1⟩ rfl fun v s₁ _ _ fine₁ => ?_
      refine course_work_only steady ⟨fine₁.idle, code.2.2⟩ rfl fun w s₂ _ grown fine₂ => ?_
      have earlier := u.fine_grows grown fine₁.value
      refine safe_bind (safe_binary fine₂ earlier fine₂.value p op) ?_
      exact fun product s₃ _ _ fine₃ => safe_realize fine₃
  | unary p op operand =>
      simp only [Expr.parts, permits_cons] at code
      simp only [Eval.expr]
      refine course_work_only steady ⟨fine, code.2⟩ rfl fun v s' _ _ fine => ?_
      refine safe_attempt fine p fun w computed => ?_
      simpa using u.fine_plain (Store.unary_result computed)
  | index p target i =>
      simp only [Expr.parts, permits_cons, permits_append] at code
      simp only [Eval.expr]
      refine course_work steady ⟨fine, code.2.1⟩ rfl fun v s₁ _ _ fine₁ => ?_
      refine course_work_only steady ⟨fine₁.idle, code.2.2⟩ rfl fun i s₂ _ grown fine₂ => ?_
      exact safe_indexGet fine₂ (u.fine_grows grown fine₁.value) p
  | setIndex p target i value =>
      simp only [Expr.parts, permits_cons, permits_append] at code
      simp only [Eval.expr]
      obtain ⟨allowed, ⟨target, index⟩, value⟩ := code
      refine course_work steady ⟨fine, target⟩ rfl fun v s₁ _ _ fine₁ => ?_
      refine course_work steady ⟨fine₁.idle, index⟩ rfl fun i s₂ _ grown fine₂ => ?_
      refine course_work_only steady ⟨fine₂.idle, value⟩ rfl fun w s₃ _ grown' fine₃ => ?_
      have known := u.fine_grows grown' (u.fine_grows grown fine₁.value)
      exact safe_setIndex fine₃ (allowed rfl) known p
  | field p target word =>
      simp only [Expr.parts, permits_cons] at code
      simp only [Eval.expr]
      refine course_work_only steady ⟨fine, code.2⟩ rfl fun v s' _ _ fine => ?_
      refine safe_attempt fine p fun w read => ?_
      simpa using u.fine_held fine.sound fine.value (Store.fieldGet_result read)
  | method p target word args =>
      simp only [Expr.parts, permits_cons, permits_append] at code
      simp only [Eval.expr]
      refine course_work_only steady ⟨fine, code.2.1⟩ rfl fun v s' _ _ fine => ?_
      exact safe_fail fine p _
  | call p callee args =>
      simp only [Expr.parts, permits_cons] at code
      simp only [Eval.expr]
      exact course_last steady (w := .call p callee args) ⟨fine, code.2⟩

theorem course_exprs {es : List Expr} (fine : u.Fine [] s) (code : u.Permits (Expr.itemParts es)) :
    u.Course steps ((Eval.exprs t es (steps + 1) s).moment? id) s.store
      ((Work.exprs es).parts t steps s) := by
  cases es with
  | nil =>
      simp only [Eval.exprs]
      exact .ends (safe_pure fine.idle)
  | cons e rest =>
      simp only [Expr.itemParts, permits_append] at code
      simp only [Eval.exprs]
      refine course_work steady ⟨fine, code.1⟩ rfl fun v s₁ _ _ fine₁ => ?_
      refine course_work_only steady ⟨fine₁.idle, code.2⟩ rfl fun values s₂ _ grown fine₂ => ?_
      have first := u.fine_grows grown fine₁.value
      exact safe_pure (fine₂.at (List.forall_mem_cons.2 ⟨first, fine₂.atHand⟩))

theorem course_dictEntries {p : Position} {entries : List (EntryKey × Expr)} {filled : Dict Value}
    (fine : u.Fine (filled.toList.map (·.2)) s) (code : u.Permits (Expr.entryParts entries)) :
    u.Course steps ((Eval.dictEntries t p entries filled (steps + 1) s).moment?
        fun d => d.toList.map (·.2)) s.store
      ((Work.dictEntries p entries filled).parts t steps s) := by
  cases entries with
  | nil =>
      simp only [Eval.dictEntries]
      exact .ends (safe_pure fine)
  | cons entry rest =>
      obtain ⟨key, e⟩ := entry
      simp only [Expr.entryParts, permits_append] at code
      simp only [Eval.dictEntries]
      refine course_op (safe_entryKey fine p key) fun key s₁ _ grown fine₁ => ?_
      refine course_work steady ⟨fine₁, code.1⟩ rfl fun v s₂ _ grown' fine₂ => ?_
      have earlier := fine.later (u.grows_trans grown grown')
      refine course_last steady (w := .dictEntries p rest (filled.insert key v)) ⟨?_, code.2⟩
      refine fine₂.at (List.forall_mem_map.2 fun entry member => ?_)
      rcases Dict.mem_of_mem_insert member with old | rfl
      · exact List.forall_mem_map.1 earlier entry old
      · exact fine₂.value

theorem course_call {p : Position} {callee : String} {args : List Expr}
    (fine : u.Fine [] s) (code : u.Permits (Expr.itemParts args)) :
    u.Course steps ((Eval.call t p callee args (steps + 1) s).moment? fun v => [v]) s.store
      ((Work.call p callee args).parts t steps s) := by
  simp only [Eval.call]
  change u.Course steps (((Run.check p (t.callee (s.scopes.target callee) args.length) >>= _)
    s).moment? _) s.store _
  delta Work.parts
  dsimp only
  cases found : t.callee (s.scopes.target callee) args.length with
  | error fault => exact .ends (safe_fail fine p fault)
  | ok f =>
      change u.Course steps (((Eval.exprs t args steps >>= _) s).moment? _) s.store _
      refine course_work steady ⟨fine, code⟩ rfl fun values s₁ _ _ fine₁ => ?_
      exact course_last steady (w := .invoke p _ f values) ⟨fine₁, permits_callee found⟩

theorem course_apply {p : Position} {name : String} {args : List Value}
    (fine : u.Fine args s) :
    u.Course steps ((Eval.apply t p name args (steps + 1) s).moment? fun v => [v]) s.store
      ((Work.apply p name args).parts t steps s) := by
  simp only [Eval.apply]
  delta Work.parts
  dsimp only
  cases found : t.callee name args.length with
  | error fault => exact .ends (safe_fail fine p fault)
  | ok f => exact course_last steady (w := .invoke p name f args) ⟨fine, permits_callee found⟩

theorem course_invoke {p : Position} {name : String} {f : Callee} {args : List Value}
    (fine : u.Fine args s) (code : u.Permits (Work.invoke p name f args).code) :
    u.Course steps ((Eval.invoke t p name f args (steps + 1) s).moment? fun v => [v]) s.store
      ((Work.invoke p name f args).parts t steps s) := by
  cases f with
  | intrinsic i =>
      simp only [Eval.invoke]
      exact course_last steady (w := .intrinsic p i args) ⟨fine, permits_nil⟩
  | user f =>
      simp only [Eval.invoke]
      refine Course.closed (fun _ => rfl) (fun fine => fine.popped rfl rfl) ?_
      change u.Course steps _ (s.entered ⟨name, p⟩).store _
      refine course_op (safe_bindParams p f.params args (fine.entered ⟨name, p⟩)) ?_
      intro _ s₁ _ _ fine₁
      refine course_work_only steady ⟨fine₁, code⟩ rfl fun flow s₂ _ _ fine₂ => ?_
      cases flow with
      | next => exact safe_pure (fine₂.one (u.fine_plain .null))
      | returned v => exact safe_pure fine₂

theorem course_map {p : Position} {v callback : Value}
    (fine : u.Fine [v, callback] s) :
    u.Course steps ((Eval.intrinsic t p .map [v, callback] (steps + 1) s).moment?
        fun v => [v]) s.store
      ((Work.intrinsic p .map [v, callback]).parts t steps s) := by
  have named := safe_callbackName fine p callback
  have known : u.fine s.store v := fine.atHand v (by simp)
  simp only [Eval.intrinsic]
  cases v with
  | list a =>
      refine course_op named fun name s₁ done grown fine₁ => ?_
      obtain rfl := callbackName_done done
      refine course_work_only steady (w := .mapItems p name (s₁.store.items a).toList)
        (x := Eval.mapItems t p name (s₁.store.items a).toList steps) ⟨?_, permits_nil⟩ rfl ?_
      · exact fine₁.at fun item member => u.fine_held fine.sound known (.inl ⟨a, rfl, member⟩)
      · intro results s₂ _ _ fine₂
        exact safe_make fine₂ (u.newList fine₂.sound fine₂.atHand)
  | string text =>
      refine course_op named fun name s₁ _ _ fine₁ => ?_
      refine course_work_only steady (w := .mapText p name text.toList "")
        ⟨fine₁, permits_nil⟩ rfl fun joined s₂ _ _ fine₂ => ?_
      exact safe_pure (fine₂.one (u.fine_plain (.string joined)))
  | _ =>
      refine .ends (safe_bind named fun name s₁ _ _ fine₁ => ?_)
      exact safe_fail fine₁ p _

theorem course_intrinsic {p : Position} {i : Intrinsic} {args : List Value}
    (fine : u.Fine args s) :
    u.Course steps ((Eval.intrinsic t p i args (steps + 1) s).moment? fun v => [v]) s.store
      ((Work.intrinsic p i args).parts t steps s) := by
  by_cases mapping : i = .map
  · subst mapping
    rcases args with _ | ⟨v, _ | ⟨callback, _ | ⟨more, rest⟩⟩⟩
    case cons.cons.nil => exact course_map steady fine
    case nil => exact .ends (safe_fail fine p _)
    all_goals
      simp only [Eval.intrinsic]
      cases v <;> exact .ends (safe_fail fine p _)
  · rw [Work.parts_intrinsic mapping]
    exact .ends (safe_intrinsic mapping steps fine)

theorem course_mapItems {p : Position} {name : String} {items : List Value}
    (fine : u.Fine items s) :
    u.Course steps ((Eval.mapItems t p name items (steps + 1) s).moment? id) s.store
      ((Work.mapItems p name items).parts t steps s) := by
  cases items with
  | nil =>
      simp only [Eval.mapItems]
      exact .ends (safe_pure fine.idle)
  | cons item rest =>
      simp only [Eval.mapItems]
      obtain ⟨first, others⟩ := List.forall_mem_cons.1 fine.atHand
      refine course_work steady (w := .apply p name [item]) ⟨fine.one first, permits_nil⟩ rfl
        fun v s₁ _ grown fine₁ => ?_
      have later := fine₁.at ((fine.at others).later grown)
      refine course_work_only steady (w := .mapItems p name rest) ⟨later, permits_nil⟩ rfl
        fun values s₂ _ grown' fine₂ => ?_
      have first := u.fine_grows grown' fine₁.value
      exact safe_pure (fine₂.at (List.forall_mem_cons.2 ⟨first, fine₂.atHand⟩))

theorem course_mapText {p : Position} {name joined : String} {cs : List Char}
    (fine : u.Fine [] s) :
    u.Course steps ((Eval.mapText t p name cs joined (steps + 1) s).moment? fun _ => []) s.store
      ((Work.mapText p name cs joined).parts t steps s) := by
  cases cs with
  | nil =>
      simp only [Eval.mapText]
      exact .ends (safe_pure fine)
  | cons c rest =>
      simp only [Eval.mapText]
      have item := fine.one (u.fine_plain (.string (String.singleton c)))
      refine course_work steady (w := .apply p name _) ⟨item, permits_nil⟩ rfl
        fun v s₁ _ _ fine₁ => ?_
      refine course_op (safe_query fine₁ p _)
        fun text s₂ _ _ fine₂ => ?_
      exact course_last steady (w := .mapText p name rest (joined ++ text)) ⟨fine₂, permits_nil⟩

theorem course_scope {body : List Stmt} (fine : u.Fine [] s)
    (code : u.Permits (Stmt.code (Stmt.blockParts body))) :
    u.Course steps ((Run.inScope (Eval.statements t body steps) s).moment? Flow.values) s.store
      [(.statements body, s.opened)] := by
  refine Course.closed (fun _ => rfl) (fun fine => fine.popped rfl rfl) ?_
  exact course_last steady (w := .statements body) ⟨fine.opened, code⟩

theorem course_loop {p : Position} {start : LoopStart} {condition step : Option Expr}
    {body : List Stmt} (fine : u.Fine [] s) (begins : u.Permits (Stmt.code start.statement?.toList))
    (code : u.Permits ((condition.toList ++ step.toList).flatMap Expr.parts ++
      Stmt.code (Stmt.blockParts body))) :
    u.Course steps ((Eval.statement t (.loop p start condition step body) (steps + 1) s).moment?
        Flow.values) s.store
      ((Work.statement (.loop p start condition step body)).parts t steps s) := by
  have rounds : ∀ {s : State}, u.Fine [] s → u.Course steps
      ((Eval.rounds t condition step body steps s).moment? Flow.values) s.store
      [(.rounds condition step body, s)] :=
    fun fine => course_last steady (w := .rounds condition step body) ⟨fine, code⟩
  simp only [Eval.statement]
  refine Course.closed (fun _ => rfl) (fun fine => fine.popped rfl rfl) ?_
  change u.Course steps _ s.opened.store _
  cases start with
  | nothing => exact rounds fine.opened
  | declare q word value =>
      have own : u.Permits value.parts := permits_single (s := .declare q word value) rfl begins
      refine course_work steady ⟨fine.opened, own⟩ rfl fun v s₁ _ _ fine₁ => ?_
      refine course_op (safe_define fine₁.idle q word fine₁.value) fun _ s₂ _ _ fine₂ => ?_
      exact rounds fine₂
  | expr e =>
      have own : u.Permits e.parts := permits_single (s := .expr e) rfl begins
      refine course_work steady ⟨fine.opened, own⟩ rfl fun v s₁ _ _ fine₁ => ?_
      exact rounds fine₁.idle

theorem course_statement {st : Stmt} (fine : u.Fine [] s) (code : u.Permits (Stmt.code st.parts)) :
    u.Course steps ((Eval.statement t st (steps + 1) s).moment? Flow.values) s.store
      ((Work.statement st).parts t steps s) := by
  cases st with
  | declare p word value =>
      have own : u.Permits value.parts := permits_single (s := .declare p word value) rfl code
      simp only [Eval.statement]
      refine course_work_only steady ⟨fine, own⟩ rfl fun v s₁ _ _ fine₁ => ?_
      refine safe_bind (safe_define fine₁.idle p word fine₁.value) fun _ s₂ _ _ fine₂ => ?_
      exact safe_pure fine₂
  | expr e =>
      have own : u.Permits e.parts := permits_single (s := .expr e) rfl code
      simp only [Eval.statement]
      refine course_work_only steady ⟨fine, own⟩ rfl fun v s₁ _ _ fine₁ => ?_
      exact safe_pure fine₁.idle
  | «return» p value =>
      cases value with
      | none =>
          simp only [Eval.statement]
          exact .ends (safe_pure (fine.one (u.fine_plain .null)))
      | some e =>
          have own : u.Permits e.parts := permits_single (s := .return p (some e)) rfl code
          simp only [Eval.statement]
          refine course_work_only steady ⟨fine, own⟩ rfl fun v s₁ _ _ fine₁ => ?_
          exact safe_pure fine₁
  | branch p condition yes no =>
      have parted : u.Permits condition.parts ∧ u.Permits (Stmt.code (Stmt.blockParts yes)) ∧
          ∀ body ∈ no, u.Permits (Stmt.code (Stmt.blockParts body)) := by
        cases no <;>
          simpa [Stmt.parts, Stmt.code_cons, Stmt.code_append, Stmt.operands] using code
      simp only [Eval.statement]
      refine course_work steady ⟨fine, parted.1⟩ rfl fun v s₁ _ _ fine₁ => ?_
      rw [Run.truthy_bind]
      cases s₁.store.truthy v with
      | true => exact course_scope steady fine₁.idle parted.2.1
      | false =>
          cases no with
          | none => exact .ends (safe_pure fine₁.idle)
          | some no => exact course_scope steady fine₁.idle (parted.2.2 no rfl)
  | loop p start condition step body =>
      have parted : u.Permits (Stmt.code start.statement?.toList) ∧
          u.Permits ((condition.toList ++ step.toList).flatMap Expr.parts ++
            Stmt.code (Stmt.blockParts body)) := by
        simp only [Stmt.parts, Stmt.code_cons, Stmt.code_append, Stmt.operands,
          permits_append] at code ⊢
        exact ⟨code.2.1, code.1, code.2.2⟩
      exact course_loop steady fine parted.1 parted.2
  | block p body =>
      simp only [Stmt.parts, Stmt.code_cons, Stmt.operands, List.flatMap_nil,
        List.nil_append] at code
      simp only [Eval.statement]
      exact course_scope steady fine code

/-- A round of a loop in which the condition holds, and the rounds behind it. -/
theorem course_round {condition step : Option Expr} {body : List Stmt} (fine : u.Fine [] s)
    (code : u.Permits ((condition.toList ++ step.toList).flatMap Expr.parts ++
      Stmt.code (Stmt.blockParts body))) :
    u.Course steps
      ((Eval.round t step body steps (Eval.rounds t condition step body steps) s).moment?
        Flow.values) s.store (Work.roundParts t steps condition step body s) := by
  have parted := code
  simp only [List.flatMap_append, permits_append] at parted
  have rounds : ∀ {s : State}, u.Fine [] s → u.Course steps
      ((Eval.rounds t condition step body steps s).moment? Flow.values) s.store
      [(.rounds condition step body, s)] :=
    fun fine => course_last steady (w := .rounds condition step body) ⟨fine, code⟩
  have own : (Work.statements body).ending t steps s.opened =
      (Eval.statements t body steps s.opened).moment? Flow.values := rfl
  refine course_work_in steady ⟨fine.opened, parted.2⟩ rfl own rfl (fun _ => rfl)
    (fun fine => fine.popped rfl rfl) fun flow s₁ _ _ fine₁ => ?_
  cases flow with
  | returned v => exact .ends (safe_pure fine₁)
  | next =>
      cases step with
      | none => exact rounds fine₁
      | some e =>
          have own : u.Permits e.parts := by simpa using parted.1.2
          exact course_work steady ⟨fine₁, own⟩ rfl fun v s₂ _ _ fine₂ => rounds fine₂.idle

theorem course_rounds {condition step : Option Expr} {body : List Stmt} (fine : u.Fine [] s)
    (code : u.Permits ((condition.toList ++ step.toList).flatMap Expr.parts ++
      Stmt.code (Stmt.blockParts body))) :
    u.Course steps ((Eval.rounds t condition step body (steps + 1) s).moment? Flow.values) s.store
      ((Work.rounds condition step body).parts t steps s) := by
  rw [Eval.rounds.eq_def]
  dsimp only
  cases condition with
  | none => exact course_round steady fine code
  | some e =>
      have parted := code
      simp only [List.flatMap_append, permits_append] at parted
      have own : u.Permits e.parts := by simpa using parted.1.1
      refine course_work steady ⟨fine, own⟩ rfl fun v s₁ _ _ fine₁ => ?_
      rw [Run.truthy_bind]
      cases s₁.store.truthy v with
      | true => exact course_round steady fine₁.idle code
      | false => exact .ends (safe_pure fine₁.idle)

theorem course_statements {body : List Stmt} (fine : u.Fine [] s)
    (code : u.Permits (Stmt.code (Stmt.blockParts body))) :
    u.Course steps ((Eval.statements t body (steps + 1) s).moment? Flow.values) s.store
      ((Work.statements body).parts t steps s) := by
  cases body with
  | nil =>
      simp only [Eval.statements]
      exact .ends (safe_pure fine)
  | cons first rest =>
      simp only [Stmt.blockParts, Stmt.code_append, permits_append] at code
      simp only [Eval.statements]
      refine course_work steady ⟨fine, code.1⟩ rfl fun flow s₁ _ _ fine₁ => ?_
      cases flow with
      | returned v => exact .ends (safe_pure fine₁)
      | next => exact course_last steady (w := .statements rest) ⟨fine₁, code.2⟩

/-- Work that can begin takes its course. -/
theorem course {w : Work} (ready : u.Ready w s) :
    u.Course steps (w.ending t (steps + 1) s) s.store (w.parts t steps s) := by
  cases w with
  | expr e => exact course_expr steady ready.fine ready.code
  | exprs es => exact course_exprs steady ready.fine ready.code
  | dictEntries p entries filled => exact course_dictEntries steady ready.fine ready.code
  | call p callee args => exact course_call steady ready.fine ready.code
  | apply p name args => exact course_apply steady ready.fine
  | invoke p name f args => exact course_invoke steady ready.fine ready.code
  | intrinsic p i args => exact course_intrinsic steady ready.fine
  | mapItems p name items => exact course_mapItems steady ready.fine
  | mapText p name cs joined => exact course_mapText steady ready.fine
  | statement st => exact course_statement steady ready.fine ready.code
  | rounds condition step body => exact course_rounds steady ready.fine ready.code
  | statements body => exact course_statements steady ready.fine ready.code

/-- A course that comes to its ending comes there safely. -/
theorem Course.safe {store : Store} {ending : Option Moment} {parts : List (Work × State)}
    (course : u.Course steps ending store parts) : u.Safe store ending := by
  induction course with
  | ends safe => exact safe
  | @part store w s rest grown ready next stuck ih =>
      intro m ended
      cases done : w.ending t steps s with
      | none =>
          rw [(stuck done).2] at ended
          cases ended
      | some mid =>
          have between := (steady ready mid done).1
          obtain ⟨further, fine⟩ := ih mid done m ended
          exact ⟨u.grows_trans grown (u.grows_trans between further), fine⟩

end

/-- With no steps left nothing ends. -/
theorem ending_zero (w : Work) (s : State) : w.ending t 0 s = none := by
  cases w <;> rfl

theorem steady : ∀ steps, u.Steady steps
  | 0 => fun _ => by
      rw [ending_zero]
      exact safe_none _
  | steps + 1 => fun ready => (course (steady steps) ready).safe (steady steps)

/-- From the store on, all goes well in the moments: from each the store grows to every later one
and to the ending, and all that is there is fine. -/
structure Well (u : Upkeep t) (store : Store) (moments : List Moment) (ending : Option Moment) :
    Prop where
  all : ∀ m ∈ moments, u.grows store m.state.store ∧ u.Fine m.values m.state
  order : moments.Pairwise fun m m' => u.grows m.state.store m'.state.store
  ends : ∀ m ∈ moments, ∀ last ∈ ending, u.grows m.state.store last.state.store

/-- Where every part of a course goes well, the course does. -/
theorem Course.well {store : Store} {ending : Option Moment} {parts : List (Work × State)}
    {moments : Work × State → List Moment} (course : u.Course steps ending store parts)
    (each : ∀ {w s}, u.Ready w s → u.Well s.store (moments (w, s)) (w.ending t steps s)) :
    u.Well store (parts.flatMap moments) ending := by
  induction course with
  | ends safe => exact ⟨by simp, by simp, by simp⟩
  | @part store w s rest grown ready next stuck ih =>
      have own := each ready
      rw [List.flatMap_cons]
      cases done : w.ending t steps s with
      | none =>
          obtain ⟨rfl, rfl⟩ := stuck done
          rw [List.flatMap_nil, List.append_nil]
          refine ⟨fun m member => ?_, own.order, by simp⟩
          obtain ⟨further, fine⟩ := own.all m member
          exact ⟨u.grows_trans grown further, fine⟩
      | some mid =>
          have later := ih mid done
          have reached : ∀ m ∈ moments (w, s), u.grows m.state.store mid.state.store :=
            fun m member => own.ends m member mid done
          have between : u.grows store mid.state.store :=
            u.grows_trans grown (u.steady steps ready mid done).1
          refine ⟨fun m member => ?_, ?_, fun m member last ended => ?_⟩
          · rcases List.mem_append.1 member with member | member
            · obtain ⟨further, fine⟩ := own.all m member
              exact ⟨u.grows_trans grown further, fine⟩
            · obtain ⟨further, fine⟩ := later.all m member
              exact ⟨u.grows_trans between further, fine⟩
          · refine List.pairwise_append.2 ⟨own.order, later.order, fun m member m' member' => ?_⟩
            exact u.grows_trans (reached m member) (later.all m' member').1
          · rcases List.mem_append.1 member with member | member
            · obtain ⟨further, -⟩ := (next mid done).safe (u.steady steps) last ended
              exact u.grows_trans (reached m member) further
            · exact later.ends m member last ended

theorem Well.begun {m : Moment} {moments : List Moment} {ending : Option Moment}
    (fine : u.Fine m.values m.state) (well : u.Well m.state.store moments ending)
    (safe : u.Safe m.state.store ending) : u.Well m.state.store (m :: moments) ending where
  all := List.forall_mem_cons.2 ⟨⟨u.grows_refl _, fine⟩, well.all⟩
  order := List.pairwise_cons.2 ⟨fun m' member => (well.all m' member).1, well.order⟩
  ends := List.forall_mem_cons.2 ⟨fun last ended => (safe last ended).1, well.ends⟩

theorem Well.ended {store : Store} {moments : List Moment} {ending : Option Moment}
    (well : u.Well store moments ending) (safe : u.Safe store ending) :
    u.Well store (moments ++ ending.toList) ending := by
  cases ending with
  | none =>
      rw [Option.toList_none, List.append_nil]
      exact well
  | some last =>
      have reached : ∀ m ∈ moments, u.grows m.state.store last.state.store :=
        fun m member => well.ends m member last rfl
      refine ⟨fun m member => ?_, List.pairwise_append.2 ⟨well.order, by simp, ?_⟩, ?_⟩
      · rcases List.mem_append.1 member with member | member
        · exact well.all m member
        · exact safe m (by simpa [eq_comm] using member)
      · simpa using reached
      · rintro m member last' ⟨⟩
        rcases List.mem_append.1 member with member | member
        · exact reached m member
        · obtain rfl := List.mem_singleton.1 member
          exact u.grows_refl _

/-- **Everything stays fine at every moment.** -/
theorem history_kept : ∀ (steps : Nat) {w : Work} {s : State}, u.Ready w s →
    u.Well s.store (history t steps w s) (w.ending t steps s) := by
  intro steps
  induction steps with
  | zero =>
      intro w s ready
      rw [ending_zero]
      refine ⟨?_, List.pairwise_singleton _ _, by simp⟩
      simpa [history] using ⟨u.grows_refl _, ready.fine⟩
  | succ steps ih =>
      intro w s ready
      have safe := u.steady (steps + 1) ready
      have inner : u.Well s.store
          ((w.parts t steps s).flatMap fun part => history t steps part.1 part.2)
          (w.ending t (steps + 1) s) := (course (u.steady steps) ready).well ih
      exact Well.begun (m := ⟨w.given, s⟩) ready.fine (inner.ended safe) safe

end Upkeep

end Eval

end Script
