/-
# Script.Proofs.Scopes.Balance -- what operations on scopes of their own leave outside

A balanced run of operations opens a scope, may open and close others inside it, and ends when it
has closed it again (`Closing`).  The scopes around it see only its assignments, and of these only
the ones made while no scope of the run binds the name (`passing`): such an assignment overwrites
the nearest outer binding, if there is one, and is gone with the scopes of the run if there is none.
So what a run does outside is what overwriting with these does, one after the other
(`Closing.toList_run`, `binding_settle`).
-/
import Script.Proofs.Scopes

namespace Script

set_option autoImplicit false

namespace Scopes

/-- An operation on scopes. -/
inductive Op where
  | push
  | pop
  | define (name : String) (value : Value)
  | assign (name : String) (value : Value)
  | lookup (name : String)

/-- The scopes after an operation.  A definition that fails leaves them as they are. -/
def Op.apply (s : Scopes) : Op → Scopes
  | push => s.push
  | pop => s.pop
  | define name value =>
      match s.define name value with
      | .ok s' => s'
      | .error _ => s
  | assign name value => s.assign name value
  | lookup _ => s

/-- How many scopes there are after an operation: the last one is never closed. -/
def Op.level (count : Nat) : Op → Nat
  | push => count + 1
  | pop => max 1 (count - 1)
  | _ => count

/-- The scopes after operations, one after the other. -/
def run (s : Scopes) (ops : List Op) : Scopes :=
  ops.foldl Op.apply s

/-- The operations close so many open scopes, and whatever they open themselves; the last of them
closes the last of these. -/
inductive Closing : Nat → List Op → Prop
  | closed : Closing 0 []
  | push {n : Nat} {ops : List Op} : Closing (n + 2) ops → Closing (n + 1) (.push :: ops)
  | pop {n : Nat} {ops : List Op} : Closing n ops → Closing (n + 1) (.pop :: ops)
  | define {n : Nat} {ops : List Op} (name : String) (value : Value) :
      Closing (n + 1) ops → Closing (n + 1) (.define name value :: ops)
  | assign {n : Nat} {ops : List Op} (name : String) (value : Value) :
      Closing (n + 1) ops → Closing (n + 1) (.assign name value :: ops)
  | lookup {n : Nat} {ops : List Op} (name : String) :
      Closing (n + 1) ops → Closing (n + 1) (.lookup name :: ops)

/-- A scope that was opened when there were `base` scopes, or later, binds the name. -/
def hides (s : Scopes) (base : Nat) (name : String) : Bool :=
  (s.toList.take (s.depth - base)).any (·.contains name)

/-- The assignments that are made while no scope but the outermost `base` binds the name. -/
def passing (base : Nat) (s : Scopes) : List Op → List (String × Value)
  | [] => []
  | op :: ops =>
      match op with
      | .assign name value =>
          if s.hides base name then passing base (op.apply s) ops
          else (name, value) :: passing base (op.apply s) ops
      | _ => passing base (op.apply s) ops

/-- The nearest scope that binds a name, counted from the innermost. -/
def nearest? (s : Scopes) (name : String) : Option Nat :=
  s.toList.findIdx? (·.contains name)

/-- What a name is bound to in the scope that is so far from the innermost. -/
def binding? (s : Scopes) (place : Nat) (name : String) : Option Value :=
  s.toList[place]?.bind (·.find? name)

variable {s : Scopes} {name : String} {value : Value}

/-! ## One operation -/

theorem depth_eq_length (s : Scopes) : s.depth = s.toList.length :=
  rfl

theorem depth_apply (s : Scopes) (op : Op) : (op.apply s).depth = op.level s.depth := by
  cases op with
  | push => rfl
  | pop =>
      obtain ⟨inner, outer⟩ := s
      cases outer with
      | nil => rfl
      | cons scope rest =>
          simp only [Op.apply, Op.level, Scopes.pop, depth, List.length_cons]
          omega
  | define name value =>
      simp only [Op.apply, Op.level]
      split
      · rename_i defined
        exact (grown_define defined).depth
      · rfl
  | assign name value => exact (s.grown_assign name value).depth
  | lookup name => rfl

theorem depth_run (s : Scopes) (ops : List Op) :
    (s.run ops).depth = ops.foldl Op.level s.depth := by
  induction ops generalizing s with
  | nil => rfl
  | cons op ops ih => exact (ih (op.apply s)).trans (by rw [depth_apply, List.foldl_cons])

/-- A definition fails where the innermost scope has the name. -/
theorem define_eq_error_iff {cause : Fault} :
    s.define name value = .error cause ↔
      s.inner.contains name = true ∧ cause = .alreadyDefined name := by
  unfold Scopes.define
  by_cases bound : s.inner.contains name = true
  · simp [bound, eq_comm]
  · simp [bound]

/-- The name means what it is bound to in the nearest scope that binds it. -/
theorem lookup_eq_nearest (s : Scopes) (name : String) :
    s.lookup name = (s.nearest? name).bind fun place => s.binding? place name := by
  simp only [lookup, nearest?, binding?]
  induction s.toList with
  | nil => rfl
  | cons scope rest ih =>
      rw [List.findSome?_cons, List.findIdx?_cons]
      cases found : scope.find? name with
      | some value => simp [Scope.contains, found]
      | none =>
          have unbound : scope.contains name = false := by simp [Scope.contains, found]
          rw [ih, unbound, if_neg Bool.false_ne_true, Option.bind_map]
          rfl

/-- Binding a name that no scope has concerns the innermost scope alone. -/
theorem binding_assign_of_unbound (unbound : s.has name = false) (place : Nat) (other : String) :
    (s.assign name value).binding? place other =
      if place = 0 ∧ other = name then some value else s.binding? place other := by
  have none : overwrite? name value s.toList = none := overwrite?_eq_none_iff.2 unbound
  rw [binding?, toList_assign, none, Option.getD_none, binding?, toList]
  cases place with
  | zero => simp [Scope.find?_set]
  | succ place => simp

/-! ## Overwriting, one name after the other -/

/-- The scopes with the nearest binding of each name overwritten, one after the other.  What no
scope binds has no effect. -/
def settle (assigned : List (String × Value)) (scopes : List Scope) : List Scope :=
  assigned.foldl (fun scopes a => (overwrite? a.1 a.2 scopes).getD scopes) scopes

theorem settle_cons (a : String × Value) (assigned : List (String × Value)) (scopes : List Scope) :
    settle (a :: assigned) scopes = settle assigned (settle [a] scopes) :=
  rfl

theorem names_settle_one (a : String × Value) (scopes : List Scope) :
    (settle [a] scopes).map Scope.names = scopes.map Scope.names := by
  change ((overwrite? a.1 a.2 scopes).getD scopes).map Scope.names = _
  cases found : overwrite? a.1 a.2 scopes with
  | none => rfl
  | some scopes' => exact names_overwrite? found

theorem names_settle (assigned : List (String × Value)) (scopes : List Scope) :
    (settle assigned scopes).map Scope.names = scopes.map Scope.names := by
  induction assigned generalizing scopes with
  | nil => rfl
  | cons a assigned ih => rw [settle_cons, ih, names_settle_one]

theorem length_settle (assigned : List (String × Value)) (scopes : List Scope) :
    (settle assigned scopes).length = scopes.length := by
  simpa using congrArg List.length (names_settle assigned scopes)

/-- The nearest scope that binds a name depends on the names alone. -/
theorem findIdx?_of_names {scopes scopes' : List Scope}
    (same : scopes'.map Scope.names = scopes.map Scope.names) (name : String) :
    scopes'.findIdx? (·.contains name) = scopes.findIdx? (·.contains name) := by
  classical
  have byNames : ∀ scopes : List Scope, scopes.findIdx? (·.contains name) =
      (scopes.map Scope.names).findIdx? (fun names => decide (name ∈ names)) := by
    intro scopes
    simp [List.findIdx?_map, Function.comp_def, Scope.mem_names]
  rw [byNames, byNames, same]

/-- Overwriting changes the nearest binding of the one name. -/
theorem binding_settle_one (name other : String) (value : Value) :
    ∀ (scopes : List Scope) (place : Nat),
      ((settle [(name, value)] scopes)[place]?.bind (·.find? other)) =
        if other = name ∧ scopes.findIdx? (·.contains name) = some place then some value
        else scopes[place]?.bind (·.find? other)
  | [], place => by simp [settle, overwrite?]
  | scope :: rest, place => by
      rw [List.findIdx?_cons]
      by_cases bound : scope.contains name = true
      · have here : settle [(name, value)] (scope :: rest) = scope.set name value :: rest := by
          simp [settle, overwrite?, bound]
        rw [here]
        cases place with
        | zero => simp [bound, Scope.find?_set]
        | succ place => simp [bound]
      · have later : settle [(name, value)] (scope :: rest) =
            scope :: settle [(name, value)] rest := by
          simp only [settle, List.foldl_cons, List.foldl_nil, overwrite?, if_neg bound]
          cases overwrite? name value rest <;> rfl
        rw [later]
        cases place with
        | zero => simp [bound]
        | succ place => simp [bound, binding_settle_one name other value rest]

/-- The nearest binding of a name gets the last of the values for it, and no other changes. -/
theorem binding_settle (assigned : List (String × Value)) (scopes : List Scope) (place : Nat)
    (name : String) :
    ((settle assigned scopes)[place]?.bind (·.find? name)) =
      if scopes.findIdx? (·.contains name) = some place then
        (assigned.reverse.lookup name).or (scopes[place]?.bind (·.find? name))
      else scopes[place]?.bind (·.find? name) := by
  induction assigned generalizing scopes with
  | nil => simp [settle]
  | cons a assigned ih =>
      obtain ⟨key, value⟩ := a
      have nearest := findIdx?_of_names (names_settle_one (key, value) scopes) name
      have last : ((key, value) :: assigned).reverse.lookup name =
          (assigned.reverse.lookup name).or (if name = key then some value else none) := by
        rw [List.reverse_cons, List.lookup_append]
        by_cases same : name = key
        · simp [same]
        · simp [List.lookup_cons, beq_false_of_ne same, same]
      rw [settle_cons, ih, nearest, binding_settle_one, last]
      by_cases same : name = key
      · subst same
        by_cases here : scopes.findIdx? (·.contains name) = some place
        · simp only [here, if_true, and_self, Option.or_assoc, Option.some_or]
        · simp only [here, if_false, and_false]
      · simp only [same, if_false, false_and, Option.or_none]

/-! ## The scopes around a balanced run -/

section
variable {own below : List Scope} {n : Nat} {ops : List Op}

/-- The scopes of a run are those that hide the ones around it. -/
theorem hides_iff (split : s.toList = own ++ below) :
    s.hides below.length name = own.any (·.contains name) := by
  have length : s.depth - below.length = own.length := by
    rw [depth_eq_length, split, List.length_append, Nat.add_sub_cancel]
  rw [hides, length, split, List.take_left]

/-- A new value in the innermost scope is in the first of the own scopes. -/
theorem toList_set_inner {scope : Scope} (split : s.toList = (scope :: own) ++ below)
    (name : String) (value : Value) :
    toList { s with inner := s.inner.set name value } =
      (s.inner.set name value :: own) ++ below := by
  obtain ⟨inner, outer⟩ := s
  cases split
  rfl

/-- Own scopes stay as many with a definition, and those around them as they are. -/
theorem toList_define {scope : Scope} (split : s.toList = (scope :: own) ++ below) (name : String)
    (value : Value) :
    ∃ scope', ((Op.define name value).apply s).toList = (scope' :: own) ++ below := by
  simp only [Op.apply, define]
  by_cases bound : s.inner.contains name = true
  · rw [if_pos bound]
    exact ⟨scope, split⟩
  · rw [if_neg bound]
    exact ⟨_, toList_set_inner split name value⟩

/-- An assignment that no own scope hides overwrites the nearest binding outside. -/
theorem toList_assign_passing {scope : Scope} (split : s.toList = (scope :: own) ++ below)
    (passes : s.hides below.length name = false) (value : Value) :
    ∃ scope', (s.assign name value).toList = (scope' :: own) ++ settle [(name, value)] below := by
  rw [hides_iff split] at passes
  have unbound : overwrite? name value (scope :: own) = none := overwrite?_eq_none_iff.2 passes
  rw [toList_assign, split, overwrite?_append, unbound]
  cases found : overwrite? name value below with
  | some below' => exact ⟨scope, by simp [settle, found]⟩
  | none =>
      refine ⟨s.inner.set name value, ?_⟩
      have placed := toList_set_inner split name value
      simpa [settle, found, toList] using placed

/-- An assignment that an own scope hides stays inside. -/
theorem toList_assign_hidden (split : s.toList = own ++ below)
    (hidden : s.hides below.length name = true) (value : Value) :
    ∃ own', own'.length = own.length ∧ (s.assign name value).toList = own' ++ below := by
  rw [hides_iff split] at hidden
  cases found : overwrite? name value own with
  | none =>
      rw [overwrite?_eq_none_iff.1 found] at hidden
      cases hidden
  | some own' =>
      have length := congrArg List.length (names_overwrite? found)
      simp only [List.length_map] at length
      refine ⟨own', length, ?_⟩
      rw [toList_assign, split, overwrite?_append, found]
      rfl

/-- Operations that close the own scopes leave those around them with what passes.  By induction on
the operations: each keeps the scopes split into own ones, of which there are still some, and those
around them, of which there are as many as before. -/
theorem Closing.toList_run (closing : Closing n ops) :
    ∀ {s : Scopes} {own below : List Scope}, s.toList = own ++ below → own.length = n →
      below ≠ [] → (s.run ops).toList = settle (passing below.length s ops) below := by
  induction closing with
  | closed =>
      intro s own below split none around
      cases List.eq_nil_of_length_eq_zero none
      exact split
  | push _ ih =>
      intro s own below split some around
      have split' : s.push.toList = (.empty :: own) ++ below := congrArg (Scope.empty :: ·) split
      exact ih split' (congrArg (· + 1) some) around
  | pop _ ih =>
      intro s own below split some around
      obtain ⟨scope, own, rfl⟩ := List.exists_cons_of_length_eq_add_one some
      have more : own ++ below ≠ [] := fun none => around (List.append_eq_nil_iff.1 none).2
      exact ih (toList_pop more split) (by simpa using some) around
  | define name value _ ih =>
      intro s own below split some around
      obtain ⟨scope, own, rfl⟩ := List.exists_cons_of_length_eq_add_one some
      obtain ⟨scope', split'⟩ := toList_define split name value
      exact ih split' (by simpa using some) around
  | assign name value _ ih =>
      intro s own below split some around
      obtain ⟨scope, own, rfl⟩ := List.exists_cons_of_length_eq_add_one some
      simp only [passing]
      cases hidden : s.hides below.length name with
      | true =>
          obtain ⟨own', length, split'⟩ := toList_assign_hidden split hidden value
          exact ih split' (length.trans some) around
      | false =>
          obtain ⟨scope', split'⟩ := toList_assign_passing split hidden value
          have length := length_settle [(name, value)] below
          have around' : settle [(name, value)] below ≠ [] := by
            rwa [ne_eq, ← List.length_eq_zero_iff, length, List.length_eq_zero_iff]
          have later := ih split' (by simpa using some) around'
          rwa [length] at later
  | lookup name _ ih =>
      intro s own below split some around
      exact ih split some around

end

/-- **A balanced run of operations rebinds the nearest outer names, and no more.**  Afterwards there
are as many scopes, each with the names it had.  The nearest outer binding of a name has the last
value that was assigned to the name while no scope of the run bound it, if there was one; every
other binding is what it was.  At any moment a name means its binding in the nearest scope that has
it; a definition fails where the innermost scope has the name, and then changes nothing; and
assigning to a name that no scope has binds it in the innermost.  No operations at all, with however
many scopes closed, leave less than one scope. -/
theorem balanced_run_rebinds_nearest (s : Scopes) {ops : List Op} (closing : Closing 1 ops) :
    let s' := s.run (.push :: ops)
    let assigned := passing s.depth s (.push :: ops)
    s'.depth = s.depth ∧ s.Rebound s' ∧
    (∀ place name, s'.binding? place name =
      if s.nearest? name = some place then
        (assigned.reverse.lookup name).or (s.binding? place name)
      else s.binding? place name) ∧
    (∀ r : Scopes,
      (∀ name, r.lookup name = (r.nearest? name).bind fun place => r.binding? place name) ∧
      (∀ name value,
        (∀ cause, r.define name value = .error cause ↔
          r.inner.contains name = true ∧ cause = .alreadyDefined name) ∧
        (r.inner.contains name = true → (Op.define name value).apply r = r)) ∧
      ∀ name value, r.has name = false → ∀ place other,
        (r.assign name value).binding? place other =
          if place = 0 ∧ other = name then some value else r.binding? place other) ∧
    ∀ (r : Scopes) (ops : List Op),
      (r.run ops).depth = ops.foldl Op.level r.depth ∧ 1 ≤ (r.run ops).depth := by
  intro s' assigned
  have opened : s.push.toList = [.empty] ++ s.toList := toList_push s
  have outside : s'.toList = settle assigned s.toList :=
    closing.toList_run opened rfl (List.cons_ne_nil _ _)
  have names : s.Rebound s' := (congrArg _ outside).trans (names_settle assigned s.toList)
  refine ⟨names.grown.depth, names, fun place name => ?_, fun r => ⟨lookup_eq_nearest r,
    fun name value => ⟨fun _ => define_eq_error_iff, fun bound => ?_⟩,
    fun name value unbound => ?_⟩, fun r ops => ⟨depth_run r ops, Nat.le_add_left 1 _⟩⟩
  · rw [binding?, outside]
    exact binding_settle assigned s.toList place name
  · simp only [Op.apply, define, bound, if_true]
  · exact binding_assign_of_unbound unbound

/-- The outer name is assigned to before it is hidden, and again when its hiding is over. -/
theorem rebound_before_and_after_hiding :
    let s : Scopes := ⟨⟨[("x", .null)]⟩, [⟨[("x", .null), ("y", .null)]⟩]⟩
    let ops : List Scopes.Op := [.assign "x" (.bool false), .push, .define "x" (.string "inner"),
      .assign "x" (.string "hidden"), .assign "z" .null, .pop, .assign "x" (.bool true), .pop]
    Closing 1 ops ∧ (s.run (.push :: ops)).binding? 0 "x" = some (.bool true) ∧
      (s.run (.push :: ops)).binding? 1 "x" = some .null ∧ s.Rebound (s.run (.push :: ops)) := by
  intro s ops
  have closing : Closing 1 ops :=
    .assign _ _ (.push (.define _ _ (.assign _ _ (.assign _ _ (.pop
      (.assign _ _ (.pop .closed)))))))
  obtain ⟨-, names, bindings, -⟩ := balanced_run_rebinds_nearest s closing
  refine ⟨closing, (bindings 0 "x").trans ?_, (bindings 1 "x").trans ?_, names⟩
  · decide
  · decide

end Scopes

end Script
