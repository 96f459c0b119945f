/-
# Script.Proofs.Eval.Mapping -- what map comes to

`map` calls its callback on one item after the other, each call in the state that the one before it
left (`Eval.Called`), and stops where a call does (`Eval.Stopped`).  The items are those that
the list held at the beginning, whatever is written to it meanwhile.  A fixed number of steps is
used up item by item (`Eval.mapItems_append`); with enough of them `map` comes to what the
calls come to, given enough (`Eval.mapItems_bind_iff`).

On a text `map` is a loop of its own, which renders each result as it comes.  If the results are
no containers their texts do not depend on the store, so it does not matter when they are
rendered, and the loop keeps step with that over the list of the characters
(`Eval.mapText_eq`).
-/
import Script.Proofs.Eval.Ending
import Script.Proofs.Eval.MoreSteps
import Script.Proofs.Store.Nesting
import Script.Proofs.Store.Render

namespace Script

set_option autoImplicit false

theorem Outcome.done_ne_exhausted {α : Type} (result : α) (s : State) :
    Outcome.done result s ≠ .exhausted := by
  intro same
  cases same

/-- Both computations stopped, and for the same reason. -/
inductive Outcome.Stops {α β : Type} : Outcome α → Outcome β → Prop
  | failed (failure : Failure) (state : State) :
      Stops (.failed failure state) (.failed failure state)
  | aborted : Stops .aborted .aborted

theorem Outcome.Stops.ne_exhausted {α β : Type} {o : Outcome α} {o' : Outcome β}
    (stops : o.Stops o') : o ≠ .exhausted ∧ o' ≠ .exhausted := by
  cases stops <;> exact ⟨nofun, nofun⟩

namespace Run

variable {α β : Type} {x : Run α} {f : α → Run β} {s : State} {o : Outcome β}

/-- What follows a computation that stops is not begun. -/
theorem bind_stops (stops : (x s).Stops o) : (x >>= f) s = o := by
  change Run.bind x f s = o
  unfold Run.bind
  cases given : x s <;> rw [given] at stops <;> cases stops <;> rfl

/-- Only what follows the result of the first part matters. -/
theorem bind_congr {g : α → Run β} (same : ∀ a mid, x s = .done a mid → f a mid = g a mid) :
    (x >>= f) s = (x >>= g) s := by
  change Run.bind x f s = Run.bind x g s
  unfold Run.bind
  cases first : x s with
  | done a mid => exact same a mid first
  | failed | aborted | exhausted => rfl

/-- A sequence that ends goes on from its first part or stops there. -/
theorem bind_ended (given : (x >>= f) s = o) (ended : o ≠ .exhausted) :
    (∃ a mid, x s = .done a mid ∧ f a mid = o) ∨ (x s).Stops o := by
  change Run.bind x f s = o at given
  unfold Run.bind at given
  subst given
  cases first : x s with
  | done a mid => exact .inl ⟨a, mid, rfl, rfl⟩
  | failed failure mid => exact .inr (.failed failure mid)
  | aborted => exact .inr .aborted
  | exhausted =>
      rw [first] at ended
      exact absurd rfl ended

end Run

namespace Eval

variable {t : FunctionTable} {p : Position} {name : String} {items results : List Value}
  {s s' : State} {β : Type} {o : Outcome β}

/-- The calls of a function on the items, each in the state that the one before it left, gave these
results and led from the one state to the other. -/
inductive Called (t : FunctionTable) (p : Position) (name : String) :
    List Value → List Value → State → State → Prop
  | nil {s : State} : Called t p name [] [] s s
  | cons {item result : Value} {items results : List Value} {s s₁ s' : State} :
      Ends t p name [item] s (.done result s₁) → Called t p name items results s₁ s' →
        Called t p name (item :: items) (result :: results) s s'

/-- After calls on some of the items, the call on the next one stopped. -/
def Stopped (t : FunctionTable) (p : Position) (name : String) (items : List Value) (s : State)
    (o : Outcome β) : Prop :=
  ∃ before item after results s' stop, items = before ++ item :: after ∧
    Called t p name before results s s' ∧ Ends t p name [item] s' stop ∧ stop.Stops o

/-- After calls on some of the items, the call on the next one never ends. -/
def Stuck (t : FunctionTable) (p : Position) (name : String) (items : List Value) (s : State) :
    Prop :=
  ∃ before item after results s', items = before ++ item :: after ∧
    Called t p name before results s s' ∧ ∀ o, ¬ Ends t p name [item] s' o

/-- One after the other: the call on each item leads from one state to the next, and its result has
the place of the item. -/
theorem called_iff :
    Called t p name items results s s' ↔
      results.length = items.length ∧ ∃ states : Nat → State,
        states 0 = s ∧ states items.length = s' ∧
        ∀ i item result, items[i]? = some item → results[i]? = some result →
          Ends t p name [item] (states i) (.done result (states (i + 1))) := by
  constructor
  · intro called
    induction called with
    | @nil s => exact ⟨rfl, fun _ => s, rfl, rfl, nofun⟩
    | @cons item result items results s s₁ s' ended _ ih =>
        obtain ⟨length, states, first, last, calls⟩ := ih
        refine ⟨congrArg (· + 1) length, fun i => i.casesOn s states, rfl, last, ?_⟩
        intro i item result found given
        cases i with
        | zero =>
            cases found
            cases given
            change Ends t p name [item] s (.done result (states 0))
            rwa [first]
        | succ i => exact calls i item result found given
  · rintro ⟨length, states, rfl, rfl, calls⟩
    induction items generalizing results states with
    | nil =>
        obtain rfl := List.eq_nil_of_length_eq_zero length
        exact .nil
    | cons item rest ih =>
        cases results with
        | nil => cases length
        | cons result results =>
            refine .cons (calls 0 item result rfl rfl) ?_
            exact ih (Nat.succ.inj length) (fun i => states (i + 1)) fun i => calls (i + 1)

/-! ## Step by step -/

theorem mapItems_cons (item : Value) (rest : List Value) (n : Nat) :
    mapItems t p name (item :: rest) (n + 1) =
      apply t p name [item] n >>= fun value =>
        mapItems t p name rest n >>= fun values => pure (value :: values) := by
  simp only [mapItems]

/-- Once the calls on some items have enough steps, each of those takes one, and the others are
mapped as if they were alone. -/
theorem mapItems_append {before : List Value} (called : Called t p name before results s s')
    (rest : List Value) :
    ∃ n, ∀ m, n ≤ m → ∀ f : List Value → Run β,
      (mapItems t p name (before ++ rest) (m + before.length) >>= f) s =
        (mapItems t p name rest m >>= fun values => f (results ++ values)) s' := by
  induction called with
  | nil => exact ⟨0, fun m _ f => rfl⟩
  | @cons item result items results s s₁ s' ended called ih =>
      obtain ⟨n, others⟩ := ih
      obtain ⟨-, k, first⟩ := ended
      refine ⟨max n k, fun m enough f => ?_⟩
      have done : apply t p name [item] (m + items.length) s = .done result s₁ := by
        rw [apply_more (by omega : k ≤ m + items.length) p name [item] s (by simp [first]), first]
      rw [List.cons_append, List.length_cons, ← Nat.add_assoc, mapItems_cons, bind_assoc,
        Run.bind_done done]
      simp only [bind_assoc, pure_bind]
      exact others m (by omega) fun values => f (result :: values)

/-- The first call stops, or it gives a result and a later one stops. -/
theorem stopped_cons_iff {item : Value} :
    Stopped t p name (item :: items) s o ↔
      (∃ stop, Ends t p name [item] s stop ∧ stop.Stops o) ∨
        ∃ result s₁, Ends t p name [item] s (.done result s₁) ∧ Stopped t p name items s₁ o := by
  constructor
  · rintro ⟨before, next, after, results, s', stop, split, called, ended, stops⟩
    cases called with
    | nil =>
        obtain ⟨rfl, rfl⟩ := List.cons.inj split
        exact .inl ⟨stop, ended, stops⟩
    | cons first called =>
        obtain ⟨rfl, rfl⟩ := List.cons.inj split
        exact .inr ⟨_, _, first, _, next, after, _, s', stop, rfl, called, ended, stops⟩
  · rintro (⟨stop, ended, stops⟩ | ⟨result, s₁, first, before, next, after, results, s', stop, rfl,
      called, ended, stops⟩)
    · exact ⟨[], item, items, [], s, stop, rfl, .nil, ended, stops⟩
    · exact ⟨item :: before, next, after, result :: results, s', stop, rfl, .cons first called,
        ended, stops⟩

/-- The first call never ends, or it gives a result and a later one never ends. -/
theorem stuck_cons_iff {item : Value} :
    Stuck t p name (item :: items) s ↔
      (∀ o, ¬ Ends t p name [item] s o) ∨
        ∃ result s₁, Ends t p name [item] s (.done result s₁) ∧ Stuck t p name items s₁ := by
  constructor
  · rintro ⟨before, next, after, results, s', split, called, never⟩
    cases called with
    | nil =>
        obtain ⟨rfl, rfl⟩ := List.cons.inj split
        exact .inl never
    | cons first called =>
        obtain ⟨rfl, rfl⟩ := List.cons.inj split
        exact .inr ⟨_, _, first, _, next, after, _, s', rfl, called, never⟩
  · rintro (never | ⟨result, s₁, first, before, next, after, results, s', rfl, called, never⟩)
    · exact ⟨[], item, items, [], s, rfl, .nil, never⟩
    · exact ⟨item :: before, next, after, result :: results, s', rfl, .cons first called, never⟩

/-- What mapping comes to in some number of steps, the calls come to. -/
theorem mapItems_sound {n : Nat} {f : List Value → Run β}
    (given : (mapItems t p name items n >>= f) s = o) (ended : o ≠ .exhausted) :
    (∃ results s', Called t p name items results s s' ∧ f results s' = o) ∨
      Stopped t p name items s o := by
  induction items generalizing n s f with
  | nil =>
      cases n with
      | zero => exact absurd given.symm ended
      | succ n => exact .inl ⟨[], s, .nil, given⟩
  | cons item rest ih =>
      cases n with
      | zero => exact absurd given.symm ended
      | succ n =>
          rw [mapItems_cons, bind_assoc] at given
          rcases Run.bind_ended given ended with ⟨result, s₁, first, rest⟩ | stops
          · have own : Ends t p name [item] s (.done result s₁) :=
              ⟨Outcome.done_ne_exhausted result s₁, n, first⟩
            simp only [bind_assoc, pure_bind] at rest
            rcases ih rest with ⟨results, s', called, last⟩ | stopped
            · exact .inl ⟨result :: results, s', called.cons own, last⟩
            · exact .inr (stopped_cons_iff.2 (.inr ⟨result, s₁, own, stopped⟩))
          · have own : Ends t p name [item] s (apply t p name [item] n s) :=
              ⟨stops.ne_exhausted.1, n, rfl⟩
            exact .inr (stopped_cons_iff.2 (.inl ⟨_, own, stops⟩))

/-- Mapping the items comes to what the calls on them come to, given enough steps. -/
theorem mapItems_bind_iff {f : List Value → Run β} :
    (o ≠ .exhausted ∧ ∃ n, (mapItems t p name items n >>= f) s = o) ↔
      (o ≠ .exhausted ∧ ∃ results s', Called t p name items results s s' ∧ f results s' = o) ∨
      Stopped t p name items s o := by
  constructor
  · rintro ⟨ended, n, given⟩
    exact (mapItems_sound given ended).imp_left fun all => ⟨ended, all⟩
  · rintro (⟨ended, results, s', called, last⟩ | stopped)
    · obtain ⟨n, given⟩ := mapItems_append called []
      have mapped := given (n + 1) (Nat.le_succ n) f
      rw [List.append_nil] at mapped
      refine ⟨ended, n + 1 + items.length, mapped.trans ?_⟩
      change f (results ++ []) s' = o
      rw [List.append_nil, last]
    · obtain ⟨before, item, after, results, s', stop, rfl, called, ⟨-, k, ended⟩, stops⟩ := stopped
      obtain ⟨n, given⟩ := mapItems_append called (item :: after)
      have call : apply t p name [item] (max n k) s' = stop := by
        subst ended
        exact apply_more (Nat.le_max_right n k) p name [item] s' stops.ne_exhausted.1
      refine ⟨stops.ne_exhausted.2, max n k + 1 + before.length, ?_⟩
      rw [given (max n k + 1) (by omega) f, mapItems_cons, bind_assoc]
      exact Run.bind_stops (call ▸ stops)

/-! ## Over a list -/

/-- The value is a function, or the name of one. -/
def Names (callback : Value) (name : String) : Prop :=
  callback = .function name ∨ callback = .string name

theorem callbackName_eq {callback : Value} (names : Names callback name) :
    callbackName p callback = pure name := by
  rcases names with rfl | rfl <;> rfl

/-- Of the steps of a call of `map` all but three are for the items. -/
theorem apply_map {callback v : Value} (n : Nat) :
    apply t p "map" [v, callback] (n + 3) = intrinsic t p .map [v, callback] (n + 1) := by
  simp only [apply]
  rfl

theorem ends_map_iff {callback v : Value} {o : Outcome Value} :
    Ends t p "map" [v, callback] s o ↔
      o ≠ .exhausted ∧ ∃ n, intrinsic t p .map [v, callback] (n + 1) s = o := by
  refine and_congr_right fun ended => ⟨?_, ?_⟩
  · rintro ⟨n, given⟩
    match n with
    | 0 | 1 | 2 => exact absurd given.symm ended
    | n + 3 => exact ⟨n, by rw [← apply_map, given]⟩
  · rintro ⟨n, given⟩
    exact ⟨n + 3, by rw [apply_map, given]⟩

theorem intrinsic_map_list {callback : Value} (names : Names callback name) (a n : Nat) :
    intrinsic t p .map [.list a, callback] (n + 1) s =
      (mapItems t p name (s.store.items a).toList n >>= fun results =>
        Run.make (·.newList results.toArray)) s := by
  simp only [intrinsic, callbackName_eq names, pure_bind]
  rfl

/-! ## Over a text -/

/-- The texts of one character that a text consists of. -/
def letters (cs : List Char) : List Value :=
  cs.map fun c => .string (String.singleton c)

/-- As long as the calls on the items go on, their results are no containers. -/
def GivesPlain (t : FunctionTable) (p : Position) (name : String) (items : List Value) (s : State) :
    Prop :=
  ∀ before results s', before <+: items → Called t p name before results s s' →
    ∀ r ∈ results, r.address? = none

theorem GivesPlain.head {item r : Value} {s₁ : State}
    (plain : GivesPlain t p name (item :: items) s)
    (ended : Ends t p name [item] s (.done r s₁)) : r.address? = none :=
  plain [item] [r] s₁ (List.prefix_append [item] items) (.cons ended .nil) r
    (List.mem_singleton_self r)

theorem GivesPlain.tail {item r : Value} {s₁ : State}
    (plain : GivesPlain t p name (item :: items) s)
    (ended : Ends t p name [item] s (.done r s₁)) : GivesPlain t p name items s₁ := by
  intro before results s' inside called v member
  exact plain (item :: before) (r :: results) s' (List.cons_prefix_cons.2 ⟨rfl, inside⟩)
    (.cons ended called) v (List.mem_cons_of_mem r member)

/-- Calls that gave no containers are all the calls there are. -/
theorem GivesPlain.of_called (called : Called t p name items results s s')
    (plain : ∀ r ∈ results, r.address? = none) : GivesPlain t p name items s := by
  induction called with
  | nil =>
      intro before results' s'' inside other
      obtain rfl := List.prefix_nil.1 inside
      cases other
      simp
  | cons ended _ ih =>
      intro before results' s'' inside other
      obtain ⟨first, others⟩ := List.forall_mem_cons.1 plain
      cases other with
      | nil => simp
      | cons ended' rest =>
          obtain ⟨rfl, shorter⟩ := List.cons_prefix_cons.1 inside
          obtain ⟨rfl, rfl⟩ := Outcome.done.inj (ended'.unique ended)
          exact List.forall_mem_cons.2 ⟨first, ih others _ _ _ shorter rest⟩

/-- The text of a value that is no container. -/
def plainText (v : Value) : String :=
  match Store.empty.render v with
  | .ok text => text
  | .error _ => ""

theorem render_eq_plainText {v : Value} (plain : v.address? = none) (s : Store) :
    s.render v = .ok (plainText v) := by
  have nests : Store.empty.Nests 0 v := plain
  obtain ⟨text, rendered⟩ := (nests.mono (Nat.zero_le _)).ends_render
  rw [Store.render_plain s Store.empty plain, plainText, rendered]

theorem mapM_render_eq {results : List Value} (plain : ∀ r ∈ results, r.address? = none)
    (s : Store) :
    results.mapM s.render = (.ok (results.map plainText) : Attempt (List String)) := by
  induction results with
  | nil => rfl
  | cons r rest ih =>
      obtain ⟨first, others⟩ := List.forall_mem_cons.1 plain
      rw [List.mapM_cons, render_eq_plainText first, ih others]
      rfl

/-- While the results are no containers, the loop over characters does what that over items does. -/
theorem mapText_eq (cs : List Char) (joined : String) (n : Nat) (s : State)
    (plain : GivesPlain t p name (letters cs) s) :
    mapText t p name cs joined n s =
      (mapItems t p name (letters cs) n >>= fun results =>
        pure (joined ++ String.join (results.map plainText))) s := by
  induction cs generalizing joined n s with
  | nil =>
      cases n with
      | zero => rfl
      | succ n =>
          change Outcome.done joined s = .done (joined ++ String.join []) s
          rw [String.join_nil, String.append_empty]
  | cons c rest ih =>
      cases n with
      | zero => rfl
      | succ n =>
          have items : letters (c :: rest) = .string (String.singleton c) :: letters rest := rfl
          rw [items] at plain ⊢
          rw [mapItems_cons, bind_assoc, mapText]
          refine Run.bind_congr fun value mid first => ?_
          have own : Ends t p name [.string (String.singleton c)] s (.done value mid) :=
            ⟨Outcome.done_ne_exhausted value mid, n, first⟩
          have rendered : Run.attempt p (·.render value) mid = .done (plainText value) mid := by
            simp only [Run.attempt, render_eq_plainText (plain.head own)]
          rw [Run.bind_done rendered, ih _ n mid (plain.tail own)]
          simp only [bind_assoc, pure_bind, List.map_cons, String.join_cons, String.append_assoc]

theorem intrinsic_map_text {callback : Value} (names : Names callback name) (text : String)
    (n : Nat) (plain : GivesPlain t p name (letters text.toList) s) :
    intrinsic t p .map [.string text, callback] (n + 1) s =
      (mapItems t p name (letters text.toList) n >>= fun results =>
        pure (.string (String.join (results.map plainText)))) s := by
  have looped := mapText_eq text.toList "" n s plain
  simp only [String.empty_append] at looped
  simp only [intrinsic, callbackName_eq names, pure_bind]
  change Run.bind (mapText t p name text.toList "" n) _ s = _
  rw [Run.bind, looped]
  change Run.bind (Run.bind _ _) _ s = Run.bind _ _ s
  simp only [Run.bind]
  cases mapItems t p name (letters text.toList) n s <;> rfl

/-! ## What map comes to -/

/-- A new list of the results. -/
def listed (results : List Value) (s : State) : Outcome Value :=
  .done (.list s.store.size) { s with store := (s.store.newList results.toArray).2 }

/-- The texts of the results, joined. -/
def joined (texts : List String) (s : State) : Outcome Value :=
  .done (.string (String.join texts)) s

/-- The calls on the items come to the outcome: that of the one that stopped, or what is made of all
their results in the state that the last one left. -/
def MapsTo (t : FunctionTable) (p : Position) (name : String) (items : List Value) (s : State)
    (finish : List Value → State → Outcome Value → Prop) (o : Outcome Value) : Prop :=
  (∃ results s', Called t p name items results s s' ∧ finish results s' o) ∨
    Stopped t p name items s o

theorem mapsTo_iff {f : List Value → Run Value} {finish : List Value → State → Outcome Value → Prop}
    {o : Outcome Value}
    (same : ∀ results s', Called t p name items results s s' →
      (o ≠ .exhausted ∧ f results s' = o ↔ finish results s' o)) :
    (o ≠ .exhausted ∧ ∃ n, (mapItems t p name items n >>= f) s = o) ↔
      MapsTo t p name items s finish o := by
  rw [mapItems_bind_iff, MapsTo]
  refine or_congr_left ⟨?_, ?_⟩
  · rintro ⟨ended, results, s', called, given⟩
    exact ⟨results, s', called, (same results s' called).1 ⟨ended, given⟩⟩
  · rintro ⟨results, s', called, given⟩
    obtain ⟨ended, last⟩ := (same results s' called).2 given
    exact ⟨ended, results, s', called, last⟩

theorem ends_map_list_iff {callback : Value} (names : Names callback name) {a : Nat}
    {o : Outcome Value} :
    Ends t p "map" [.list a, callback] s o ↔
      MapsTo t p name (s.store.items a).toList s (fun results s' o => o = listed results s') o := by
  simp only [ends_map_iff, intrinsic_map_list names]
  refine mapsTo_iff fun results s' _ => ?_
  change o ≠ .exhausted ∧ listed results s' = o ↔ _
  constructor
  · rintro ⟨-, rfl⟩
    rfl
  · rintro rfl
    exact ⟨Outcome.done_ne_exhausted _ _, rfl⟩

theorem ends_map_text_iff {callback : Value} (names : Names callback name) {text : String}
    {o : Outcome Value} (plain : GivesPlain t p name (letters text.toList) s) :
    Ends t p "map" [.string text, callback] s o ↔
      MapsTo t p name (letters text.toList) s
        (fun results s' o =>
          ∃ texts, results.mapM s'.store.render = .ok texts ∧ o = joined texts s') o := by
  simp only [ends_map_iff, intrinsic_map_text names text _ plain]
  refine mapsTo_iff fun results s' called => ?_
  have texts := mapM_render_eq (plain _ results s' (List.prefix_refl _) called) s'.store
  change o ≠ .exhausted ∧ joined (results.map plainText) s' = o ↔ _
  constructor
  · rintro ⟨-, rfl⟩
    exact ⟨_, texts, rfl⟩
  · rintro ⟨other, given, rfl⟩
    cases texts.symm.trans given
    exact ⟨Outcome.done_ne_exhausted _ _, rfl⟩

/-- Either all calls give results, or one stops, or one never ends. -/
theorem called_or_stopped_or_stuck (t : FunctionTable) (p : Position) (name : String)
    (items : List Value) (s : State) :
    (∃ results s', Called t p name items results s s') ∨
      (∃ o : Outcome Value, Stopped t p name items s o) ∨ Stuck t p name items s := by
  induction items generalizing s with
  | nil => exact .inl ⟨[], s, .nil⟩
  | cons item rest ih =>
      by_cases ended : ∃ o, Ends t p name [item] s o
      · obtain ⟨o, own⟩ := ended
        have stopped (stops : o.Stops o) : Stopped t p name (item :: rest) s o :=
          stopped_cons_iff.2 (.inl ⟨o, own, stops⟩)
        cases o with
        | done result s₁ =>
            rcases ih s₁ with ⟨results, s', called⟩ | ⟨o, stopped⟩ | stuck
            · exact .inl ⟨result :: results, s', .cons own called⟩
            · exact .inr (.inl ⟨o, stopped_cons_iff.2 (.inr ⟨result, s₁, own, stopped⟩)⟩)
            · exact .inr (.inr (stuck_cons_iff.2 (.inr ⟨result, s₁, own, stuck⟩)))
        | failed failure s₁ => exact .inr (.inl ⟨_, stopped (.failed failure s₁)⟩)
        | aborted => exact .inr (.inl ⟨_, stopped .aborted⟩)
        | exhausted => exact absurd rfl own.1
      · exact .inr (.inr (stuck_cons_iff.2 (.inl fun o own => ended ⟨o, own⟩)))

/-- Where a call never ends, not all calls give results, and none stops. -/
theorem Stuck.alone (stuck : Stuck t p name items s) :
    (∀ results s', ¬ Called t p name items results s s') ∧
      ∀ o : Outcome Value, ¬ Stopped t p name items s o := by
  induction items generalizing s with
  | nil =>
      obtain ⟨before, next, after, _, _, split, -⟩ := stuck
      cases before <;> cases split
  | cons item rest ih =>
      rcases stuck_cons_iff.1 stuck with never | ⟨result, s₁, first, stuck⟩
      · constructor
        · rintro _ _ (_ | ⟨ended, -⟩)
          exact never _ ended
        · intro o stopped
          rcases stopped_cons_iff.1 stopped with ⟨_, ended, -⟩ | ⟨_, _, ended, -⟩ <;>
            exact never _ ended
      · obtain ⟨notCalled, notStopped⟩ := ih stuck
        constructor
        · rintro _ _ (_ | ⟨ended, called⟩)
          obtain ⟨rfl, rfl⟩ := Outcome.done.inj (ended.unique first)
          exact notCalled _ _ called
        · intro o stopped
          rcases stopped_cons_iff.1 stopped with ⟨stop, ended, stops⟩ | ⟨_, _, ended, stopped⟩
          · obtain rfl := ended.unique first
            cases stops
          · obtain ⟨rfl, rfl⟩ := Outcome.done.inj (ended.unique first)
            exact notStopped o stopped

/-- Nothing but a call that never ends keeps from an outcome, and that does. -/
theorem exists_mapsTo_iff {finish : List Value → State → Outcome Value → Prop}
    (total : ∀ results s', Called t p name items results s s' → ∃ o, finish results s' o) :
    (∃ o, MapsTo t p name items s finish o) ↔ ¬ Stuck t p name items s := by
  constructor
  · rintro ⟨o, ⟨results, s', called, -⟩ | stopped⟩ stuck
    · exact stuck.alone.1 results s' called
    · exact stuck.alone.2 o stopped
  · intro free
    rcases called_or_stopped_or_stuck t p name items s with
      ⟨results, s', called⟩ | ⟨o, stopped⟩ | stuck
    · obtain ⟨o, made⟩ := total results s' called
      exact ⟨o, .inl ⟨results, s', called, made⟩⟩
    · exact ⟨o, .inr stopped⟩
    · exact absurd stuck free

theorem Stopped.not_done {o : Outcome Value} (stopped : Stopped t p name items s o) (r : Value)
    (s' : State) : o ≠ .done r s' := by
  obtain ⟨_, _, _, _, _, _, _, _, _, stops⟩ := stopped
  cases stops <;> nofun

/-- A new list shows which results it was made of, and in which state. -/
theorem listed_inj {results results' : List Value} (same : listed results s = listed results' s') :
    results = results' ∧ s = s' := by
  obtain ⟨-, states⟩ := Outcome.done.inj same
  obtain ⟨scopes, calls, store, console⟩ := s
  obtain ⟨scopes', calls', store', console'⟩ := s'
  obtain ⟨rfl, rfl, stores, rfl⟩ := State.mk.inj states
  obtain ⟨cell, cells⟩ := Array.push_eq_push.1 (Store.mk.inj stores)
  have results := congrArg Array.toList (Cell.list.inj cell)
  exact ⟨results, congrArg (State.mk scopes calls · console) (congrArg Store.mk cells)⟩

/-- Where the items of a list are the characters of a text, to map the text is to map the list, but
for what is made of the results. -/
theorem ends_map_text_iff_list {callback : Value} (names : Names callback name) {text : String}
    (plain : GivesPlain t p name (letters text.toList) s) {a : Nat}
    (items : (s.store.items a).toList = letters text.toList) :
    (∀ o, (∀ r s', o ≠ .done r s') →
      (Ends t p "map" [.string text, callback] s o ↔ Ends t p "map" [.list a, callback] s o)) ∧
    ∀ r s', Ends t p "map" [.string text, callback] s (.done r s') ↔
      ∃ results texts, Ends t p "map" [.list a, callback] s (listed results s') ∧
        results.mapM s'.store.render = .ok texts ∧ r = .string (String.join texts) := by
  simp only [ends_map_list_iff names, ends_map_text_iff names plain, MapsTo, items]
  constructor
  · intro o other
    refine or_congr_left (iff_of_false ?_ ?_)
    · rintro ⟨results, s', -, texts, -, rfl⟩
      exact other _ _ rfl
    · rintro ⟨results, s', -, rfl⟩
      exact other _ _ rfl
  · intro r s'
    constructor
    · rintro (⟨results, mid, called, texts, rendered, given⟩ | stopped)
      · obtain ⟨rfl, rfl⟩ := Outcome.done.inj given
        exact ⟨results, texts, .inl ⟨results, s', called, rfl⟩, rendered, rfl⟩
      · exact absurd rfl (stopped.not_done r s')
    · rintro ⟨results, texts, ⟨results', mid, called, same⟩ | stopped, rendered, rfl⟩
      · obtain ⟨rfl, rfl⟩ := listed_inj same
        exact .inl ⟨results, s', called, texts, rendered, rfl⟩
      · exact absurd rfl (stopped.not_done _ _)

/-- **`map` is its calls.**  They are made one after the other, each in the state that the one
before it left, and each result has the place of its item.  Over a list the items are those it holds at
the beginning, and `map` comes to the outcome of the first call that stops, or else to a new
list of the results; nothing but a call that never ends keeps it from that.  Over a text, with a
callback that gives no containers, the calls are those on its characters, and the texts of the
results are joined.  So it stops exactly as over a list of the characters, and otherwise gives the
joined texts of what the new list would hold. -/
theorem map_is_its_calls (t : FunctionTable) (p : Position) (s : State) (callback : Value)
    (name : String) (names : Names callback name) :
    (∀ items results r r', Called t p name items results r r' ↔
      results.length = items.length ∧ ∃ states : Nat → State,
        states 0 = r ∧ states items.length = r' ∧
        ∀ i item result, items[i]? = some item → results[i]? = some result →
          Ends t p name [item] (states i) (.done result (states (i + 1)))) ∧
    (∀ a, (∀ o, Ends t p "map" [.list a, callback] s o ↔
        MapsTo t p name (s.store.items a).toList s (fun results s' o => o = listed results s') o) ∧
      ((∃ o, Ends t p "map" [.list a, callback] s o) ↔
        ¬ Stuck t p name (s.store.items a).toList s)) ∧
    ∀ text, GivesPlain t p name (letters text.toList) s →
      (∀ o, Ends t p "map" [.string text, callback] s o ↔
        MapsTo t p name (letters text.toList) s (fun results s' o =>
          ∃ texts, results.mapM s'.store.render = .ok texts ∧ o = joined texts s') o) ∧
      ((∃ o, Ends t p "map" [.string text, callback] s o) ↔
        ¬ Stuck t p name (letters text.toList) s) ∧
      ∀ a, (s.store.items a).toList = letters text.toList →
        (∀ o, (∀ r s', o ≠ .done r s') →
          (Ends t p "map" [.string text, callback] s o ↔ Ends t p "map" [.list a, callback] s o)) ∧
        ∀ r s', Ends t p "map" [.string text, callback] s (.done r s') ↔
          ∃ results texts, Ends t p "map" [.list a, callback] s (listed results s') ∧
            results.mapM s'.store.render = .ok texts ∧ r = .string (String.join texts) := by
  refine ⟨fun items results r r' => called_iff, fun a => ⟨fun o => ?_, ?_⟩,
    fun text plain => ⟨fun o => ?_, ?_, fun a items => ?_⟩⟩
  · exact ends_map_list_iff names
  · simp only [ends_map_list_iff names]
    exact exists_mapsTo_iff fun results s' _ => ⟨_, rfl⟩
  · exact ends_map_text_iff names plain
  · simp only [ends_map_text_iff names plain]
    refine exists_mapsTo_iff fun results s' called => ?_
    have rendered := mapM_render_eq (plain _ results s' (List.prefix_refl _) called) s'.store
    exact ⟨_, _, rendered, rfl⟩
  · exact ends_map_text_iff_list names plain items

/-- Writes its argument to the second slot of a list, and returns it. -/
def overwrite : Function where
  name := "overwrite"
  params := ["x"]
  body := [.expr (.setIndex .start (.name .start "l") (.number .start 1) (.name .start "x")),
    .return .start (some (.name .start "x"))]
  position := .start

/-- The second call gets what the list held to begin with, not what the first call wrote there. -/
theorem overwrite_mapped :
    let t : FunctionTable := ⟨[("overwrite", overwrite)]⟩
    let s : State := ⟨⟨⟨[("l", .list 0)]⟩, []⟩, .empty,
      ⟨#[.list #[.string "a", .string "b"]]⟩, .ofInput (.lines [])⟩
    (∃ s', Ends t .start "map" [.list 0, .string "overwrite"] s
      (listed [.string "a", .string "b"] s')) ∧
    ∃ s', Ends t .start "map" [.string "ab", .string "overwrite"] s (joined ["a", "b"] s') := by
  intro t s
  obtain ⟨-, lists, texts⟩ :=
    map_is_its_calls t .start s (.string "overwrite") "overwrite" (.inr rfl)
  obtain ⟨s', called⟩ : ∃ s', Called t .start "overwrite" [.string "a", .string "b"]
      [.string "a", .string "b"] s s' :=
    ⟨_, .cons ⟨Outcome.done_ne_exhausted _ _, 20, rfl⟩
      (.cons ⟨Outcome.done_ne_exhausted _ _, 20, rfl⟩ .nil)⟩
  have plain : GivesPlain t .start "overwrite" (letters "ab".toList) s :=
    .of_called called (by simp [Value.address?])
  refine ⟨⟨s', ((lists 0).1 _).2 (.inl ⟨_, s', called, rfl⟩)⟩, s', ?_⟩
  exact ((texts "ab" plain).1 _).2 (.inl ⟨_, s', called, ["a", "b"], rfl, rfl⟩)

end Eval

end Script
