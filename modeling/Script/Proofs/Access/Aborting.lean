/-
# Script.Proofs.Access.Aborting -- when a write by index stops the run dead

A write to a list locks it, and then renders an index that is no number for the message.  The
rendering goes everywhere that can be reached from the index, and stops the run dead where it comes
upon the locked list.  From there it never goes on, so it is as if the list were empty
(`Store.emptied`): a chain of containers that comes round does not matter if it leads through the
list.  Without other such chains the rendering either finds the list or ends with the text
(`Store.abortsIff_renderLocked`).
-/
import Script.Proofs.Access.Writing
import Script.Proofs.Store.Nesting

namespace Script

set_option autoImplicit false

namespace Attempt

variable {α β : Type} {x : Attempt α} {P Q : Prop}

/-- The operation stops the run dead in this case, and gives a result in all others. -/
structure AbortsIff (x : Attempt α) (P : Prop) : Prop where
  dead : P → x = .error .aborted
  ends : ¬ P → Ends x

namespace AbortsIff

theorem of_ends (ends : Ends x) (never : ¬ P) : AbortsIff x P :=
  ⟨fun holds => absurd holds never, fun _ => ends⟩

theorem congr (aborts : AbortsIff x P) (same : P ↔ Q) : AbortsIff x Q :=
  ⟨fun holds => aborts.dead (same.2 holds),
    fun never => aborts.ends fun holds => never (same.1 holds)⟩

theorem bind {f : α → Attempt β} (first : AbortsIff x P) (second : ∀ a, Ends (f a)) :
    AbortsIff (x >>= f) P where
  dead holds := by
    rw [first.dead holds]
    rfl
  ends never := (first.ends never).bind second

theorem mapM {f : α → Attempt β} {P : α → Prop} :
    ∀ {items : List α}, (∀ item ∈ items, AbortsIff (f item) (P item)) →
      AbortsIff (items.mapM f) (∃ item ∈ items, P item)
  | [], _ => of_ends (ends_ok []) (by simp)
  | item :: items, all => by
      obtain ⟨first, others⟩ := List.forall_mem_cons.1 all
      have rest := mapM others
      have split : (∃ i ∈ item :: items, P i) ↔ P item ∨ ∃ i ∈ items, P i := by simp
      rw [List.mapM_cons, split]
      constructor
      · intro some
        by_cases found : P item
        · rw [first.dead found]
          rfl
        · obtain ⟨b, given⟩ := first.ends found
          rw [given, rest.dead (some.resolve_left found)]
          rfl
      · intro none
        rw [not_or] at none
        exact (first.ends none.1).bind fun b => (rest.ends none.2).bind fun bs => ends_ok _

end AbortsIff

/-- The operation gives a result, or finds fault with something. -/
def Answers (x : Attempt α) : Prop :=
  (∃ a, x = .ok a) ∨ ∃ cause, x = .error (.fault cause)

theorem Answers.bind {f : α → Attempt β} (first : Answers x) (second : ∀ a, Answers (f a)) :
    Answers (x >>= f) := by
  rcases first with ⟨a, rfl⟩ | ⟨cause, rfl⟩
  · exact second a
  · exact .inr ⟨cause, rfl⟩

end Attempt

namespace Store

open Attempt Relation

variable {s : Store} {target index value v w : Value} {a : Nat} {depth : Nat}

/-- No chain of containers within reach of the index comes round, but for those through the target
if that is a list. -/
def LoopsOnlyThrough (s : Store) (target index : Value) : Prop :=
  ∀ w, ReflTransGen s.Held index w →
    ¬ TransGen (fun u v => s.Held u v ∧ ∀ a, target = .list a → u ≠ target) w w

/-! ## A list that is not gone into -/

/-- The store with nothing in a list. -/
def emptied (s : Store) (a : Nat) : Store :=
  ⟨s.cells.modify a fun
    | .list _ => .list #[]
    | cell => cell⟩

theorem size_emptied (s : Store) (a : Nat) : (s.emptied a).size = s.size := by
  simp [emptied, Store.size]

theorem items_emptied (s : Store) (a b : Nat) :
    (s.emptied a).items b = if b = a then #[] else s.items b := by
  by_cases same : b = a
  · subst same
    cases found : s.cells[b]? with
    | none => simp [emptied, Store.items, Array.getElem?_modify, found]
    | some cell => cases cell <;> simp [emptied, Store.items, Array.getElem?_modify, found]
  · simp [emptied, Store.items, Array.getElem?_modify, same, Ne.symm same]

theorem entries_emptied (s : Store) (a b : Nat) : (s.emptied a).entries b = s.entries b := by
  by_cases same : b = a
  · subst same
    cases found : s.cells[b]? with
    | none => simp [emptied, Store.entries, Array.getElem?_modify, found]
    | some cell => cases cell <;> simp [emptied, Store.entries, Array.getElem?_modify, found]
  · simp [emptied, Store.entries, Array.getElem?_modify, Ne.symm same]

theorem held_emptied_iff : (s.emptied a).Held v w ↔ s.Held v w ∧ v ≠ .list a := by
  unfold Held
  simp only [items_emptied, entries_emptied]
  constructor
  · rintro (⟨b, rfl, member⟩ | ⟨b, key, rfl, member⟩)
    · split at member
      · cases member
      · rename_i other
        exact ⟨.inl ⟨b, rfl, member⟩, by simpa using other⟩
    · exact ⟨.inr ⟨b, key, rfl, member⟩, nofun⟩
  · rintro ⟨⟨b, rfl, member⟩ | ⟨b, key, rfl, member⟩, other⟩
    · refine .inl ⟨b, rfl, ?_⟩
      rwa [if_neg (by simpa using other)]
    · exact .inr ⟨b, key, rfl, member⟩

theorem LoopsOnlyThrough.loopless_emptied (loops : s.LoopsOnlyThrough (.list a) index) :
    (s.emptied a).Loopless index := by
  intro w path round
  refine loops w (ReflTransGen.mono (fun u v held => (held_emptied_iff.1 held).1) _ _ path) ?_
  refine TransGen.mono (fun u v held => ?_) _ _ round
  obtain ⟨inside, other⟩ := held_emptied_iff.1 held
  exact ⟨inside, fun _ _ => other⟩

theorem LoopsOnlyThrough.loopless (loops : s.LoopsOnlyThrough target index)
    (other : ∀ a, target ≠ .list a) : s.Loopless index :=
  fun w path round => loops w path
    (TransGen.mono (fun _ _ held => ⟨held, fun a same => absurd same (other a)⟩) _ _ round)

/-! ## Looking for the list -/

/-- What is reached from a value, other than itself, is reached from what it holds. -/
theorem reaches_iff (other : v ≠ target) :
    (∃ w, s.Held v w ∧ ReflTransGen s.Held w target) ↔ ReflTransGen s.Held v target := by
  rw [ReflTransGen.cases_head_iff (b := target), or_iff_right other]

/-- Nothing is looked for in a value that holds nothing. -/
theorem abortsIff_renderWithin_plain (plain : v.address? = none) (depth : Nat) :
    AbortsIff (s.renderWithin (some a) depth v) (ReflTransGen s.Held v (.list a)) := by
  have other : v ≠ .list a := by
    rintro rfl
    cases plain
  refine .of_ends ?_ fun path => ?_
  · have alone : s.renderWithin (some a) depth v = s.renderWithin .none 0 v :=
      renderWithin_plain s s plain
    rw [alone]
    exact Nests.ends_renderWithin plain
  · obtain ⟨w, held, -⟩ := (reaches_iff other).2 path
    exact Nests.not_held plain held

section

variable {b : Nat}

/-- A list is rendered by rendering its items. -/
theorem abortsIff_renderWithin_list (other : (.list b : Value) ≠ .list a)
    (inside : ∀ w, s.Held (.list b) w →
      AbortsIff (s.renderWithin (some a) depth w) (ReflTransGen s.Held w (.list a))) :
    AbortsIff (s.renderWithin (some a) (depth + 1) (.list b))
      (ReflTransGen s.Held (.list b) (.list a)) := by
  have unlocked : some a ≠ some b := by
    rintro ⟨⟩
    exact other rfl
  have items := AbortsIff.mapM fun item member => inside item (.inl ⟨b, rfl, member⟩)
  simp only [renderWithin, if_neg unlocked]
  refine (items.bind fun texts => ends_ok _).congr ?_
  rw [← reaches_iff other]
  constructor
  · rintro ⟨w, member, path⟩
    exact ⟨w, .inl ⟨b, rfl, member⟩, path⟩
  · rintro ⟨w, ⟨_, ⟨⟩, member⟩ | ⟨_, _, ⟨⟩, -⟩, path⟩
    exact ⟨w, member, path⟩

/-- A dictionary is rendered by rendering the values of its entries. -/
theorem abortsIff_renderWithin_dict
    (inside : ∀ w, s.Held (.dict b) w →
      AbortsIff (s.renderWithin (some a) depth w) (ReflTransGen s.Held w (.list a))) :
    AbortsIff (s.renderWithin (some a) (depth + 1) (.dict b))
      (ReflTransGen s.Held (.dict b) (.list a)) := by
  have entries := AbortsIff.mapM fun (entry : String × Value) member =>
    (inside entry.2 (.inr ⟨b, entry.1, rfl, member⟩)).bind fun text =>
      ends_ok (entry.1 ++ "=" ++ text)
  have other : (.dict b : Value) ≠ .list a := nofun
  simp only [renderWithin]
  refine (entries.bind fun texts => ends_ok _).congr ?_
  rw [← reaches_iff other]
  constructor
  · rintro ⟨entry, member, path⟩
    exact ⟨entry.2, .inr ⟨b, entry.1, rfl, member⟩, path⟩
  · rintro ⟨w, ⟨_, ⟨⟩, -⟩ | ⟨_, key, ⟨⟩, member⟩, path⟩
    exact ⟨(key, w), member, path⟩

end

/-- Rendering a value looks for the locked list in it, and stops the run dead if it is there. -/
theorem abortsIff_renderWithin :
    ∀ {depth : Nat} {v : Value}, (s.emptied a).Nests depth v →
      AbortsIff (s.renderWithin (some a) depth v) (ReflTransGen s.Held v (.list a)) := by
  intro depth
  induction depth with
  | zero =>
      intro v nests
      exact abortsIff_renderWithin_plain nests 0
  | succ depth ih =>
      intro v nests
      by_cases same : v = .list a
      · subst same
        refine ⟨fun _ => ?_, fun away => absurd .refl away⟩
        simp only [renderWithin, if_true]
      have inside (w : Value) (held : s.Held v w) :
          AbortsIff (s.renderWithin (some a) depth w) (ReflTransGen s.Held w (.list a)) :=
        ih (nests w (held_emptied_iff.2 ⟨held, same⟩))
      cases v with
      | list b => exact abortsIff_renderWithin_list same inside
      | dict b => exact abortsIff_renderWithin_dict inside
      | _ => exact abortsIff_renderWithin_plain rfl (depth + 1)

theorem abortsIff_renderLocked (loops : s.LoopsOnlyThrough (.list a) index) :
    AbortsIff (s.renderLocked a index) (ReflTransGen s.Held index (.list a)) := by
  have nests := loops.loopless_emptied.nests
  rw [size_emptied] at nests
  exact abortsIff_renderWithin nests

/-! ## Writes and reads -/

/-- At a number there is a slot, or it is a fault that there is none. -/
theorem slot_number_answers (text : Value → Attempt String) (x : Float) (length : Nat) :
    Answers (slot text (.number x) length) := by
  simp only [slot]
  split
  · split
    · exact .inl ⟨_, rfl⟩
    · exact .inr ⟨_, rfl⟩
  · exact .inr ⟨_, rfl⟩

theorem slot_other {text : Value → Attempt String} (other : ∀ x, index ≠ .number x)
    (length : Nat) :
    slot text index length = text index >>= fun got => .fail (.notANumber got) := by
  cases index with
  | number x => exact absurd rfl (other x)
  | _ => rfl

theorem key_other (other : ∀ k, index ≠ .string k) :
    s.key index = s.render index >>= fun got => .fail (.nonStringKey got) := by
  cases index with
  | string k => exact absurd rfl (other k)
  | _ => rfl

/-- An index that has a text leads to a slot, or finds a fault to report with it. -/
theorem slot_answers {text : Value → Attempt String} (ends : Ends (text index)) (length : Nat) :
    Answers (slot text index length) := by
  by_cases number : ∃ x, index = .number x
  · obtain ⟨x, rfl⟩ := number
    exact slot_number_answers text x length
  · obtain ⟨got, given⟩ := ends
    rw [slot_other (fun x same => number ⟨x, same⟩), given]
    exact .inr ⟨_, rfl⟩

theorem key_answers (ends : Ends (s.render index)) : Answers (s.key index) := by
  by_cases string : ∃ k, index = .string k
  · obtain ⟨k, rfl⟩ := string
    exact .inl ⟨k, rfl⟩
  · obtain ⟨got, given⟩ := ends
    rw [key_other (fun k same => string ⟨k, same⟩), given]
    exact .inr ⟨_, rfl⟩

theorem indexGet_answers (loopless : s.Loopless index) : Answers (s.indexGet target index) := by
  have ends : Ends (s.render index) := loopless.nests.ends_render
  cases target with
  | list a => exact (slot_answers ends _).bind fun i => .inl ⟨_, rfl⟩
  | string text => exact (slot_answers ends _).bind fun i => .inl ⟨_, rfl⟩
  | dict a => exact (key_answers ends).bind fun k => .inl ⟨_, rfl⟩
  | _ => exact .inr ⟨_, rfl⟩

theorem indexSet_answers (loops : s.LoopsOnlyThrough target index)
    (free : ¬ ∃ a, target = .list a ∧ (∀ x, index ≠ .number x) ∧ ReflTransGen s.Held index target) :
    Answers (s.indexSet target index value) := by
  refine Answers.bind ?_ fun place => .inl ⟨_, rfl⟩
  cases target with
  | list a =>
      refine Answers.bind ?_ fun i => .inl ⟨_, rfl⟩
      by_cases number : ∃ x, index = .number x
      · obtain ⟨x, rfl⟩ := number
        exact slot_number_answers _ x _
      · refine slot_answers ((abortsIff_renderLocked loops).ends fun path => ?_) _
        exact free ⟨a, rfl, fun x same => number ⟨x, same⟩, path⟩
  | dict a =>
      have loopless := loops.loopless nofun
      exact (key_answers loopless.nests.ends_render).bind fun k => .inl ⟨_, rfl⟩
  | _ => exact .inr ⟨_, rfl⟩

theorem indexSet_list_reached (loops : s.LoopsOnlyThrough (.list a) index)
    (other : ∀ x, index ≠ .number x) (path : ReflTransGen s.Held index (.list a)) :
    s.indexSet (.list a) index value = .error .aborted := by
  rw [indexSet, Store.place, slot_other other, (abortsIff_renderLocked loops).dead path]
  rfl

theorem indexSet_list_unreached (loops : s.LoopsOnlyThrough (.list a) index)
    (other : ∀ x, index ≠ .number x) (away : ¬ ReflTransGen s.Held index (.list a)) :
    ∃ text, s.render index = .ok text ∧
      s.indexSet (.list a) index value = .error (.fault (.notANumber text)) := by
  obtain ⟨text, given⟩ := (abortsIff_renderLocked loops).ends away
  refine ⟨text, ?_, ?_⟩
  · rw [← s.renderLocked_heeds a index (by simp [given]), given]
  · rw [indexSet, Store.place, slot_other other, given]
    rfl

theorem indexSet_dict_other (loopless : s.Loopless index) (other : ∀ k, index ≠ .string k) :
    ∃ text, s.render index = .ok text ∧
      s.indexSet (.dict a) index value = .error (.fault (.nonStringKey text)) := by
  obtain ⟨text, given⟩ := loopless.nests.ends_render
  refine ⟨text, given, ?_⟩
  rw [indexSet, Store.place, key_other other, given]
  rfl

end Store

namespace Eval

variable {t : FunctionTable} {p : Position} {e i w : Expr} {steps : Nat} {s s₁ s₂ s' : State}
  {target index value : Value}

/-- An assignment to an index stops the run dead when the write does. -/
theorem expr_setIndex_aborted_iff (first : expr t e steps s = .done target s₁)
    (second : expr t i steps s₁ = .done index s₂) (third : expr t w steps s₂ = .done value s') :
    expr t (.setIndex p e i w) (steps + 1) s = .aborted ↔
      s'.store.indexSet target index value = .error .aborted := by
  rw [expr_setIndex_eq first second third, Store.indexSet]
  change Run.bind (Run.attempt p (·.place target index)) _ s' = _ ↔ _
  simp only [Run.bind, Run.attempt]
  cases s'.store.place target index with
  | ok place => constructor <;> intro same <;> cases same
  | error halt =>
      cases halt with
      | aborted => exact iff_of_true rfl rfl
      | fault cause | endless => constructor <;> intro same <;> cases same

end Eval

namespace Store

open Attempt Relation

/-- A list and a dictionary that hold one another. -/
def entwined : Store :=
  ⟨#[.list #[.dict 1], .dict (Dict.empty.insert "k" (.list 0))]⟩

/-- **A write by index stops the run dead exactly where its message would show the list it
writes.**  Where no containers within reach of the index come round, but for chains through the list
that is the target, the write stops the run dead if the target is a list, the index is no number,
and the list is the index or can be reached from it.  Every other write succeeds or finds a fault,
and says with the text of the index what is wrong with it.  A read always does, where nothing
within reach of the index comes round at all.  An assignment in a program stops dead when its
write does. -/
theorem indexSet_aborts_iff_reached (s : Store) (target index value : Value)
    (loops : s.LoopsOnlyThrough target index) :
    (s.indexSet target index value = .error .aborted ↔
      ∃ a, target = .list a ∧ (∀ x, index ≠ .number x) ∧ ReflTransGen s.Held index target) ∧
    (s.indexSet target index value ≠ .error .aborted → Answers (s.indexSet target index value)) ∧
    (∀ a, target = .list a → (∀ x, index ≠ .number x) → ¬ ReflTransGen s.Held index target →
      ∃ text, s.render index = .ok text ∧
        s.indexSet target index value = .error (.fault (.notANumber text))) ∧
    (∀ a, target = .dict a → (∀ k, index ≠ .string k) →
      ∃ text, s.render index = .ok text ∧
        s.indexSet target index value = .error (.fault (.nonStringKey text))) ∧
    ((∀ a, target ≠ .list a) → (∀ a, target ≠ .dict a) →
      s.indexSet target index value = .error (.fault (.notIndexAssignable target.kindName))) ∧
    (s.Loopless index → Answers (s.indexGet target index)) ∧
    ∀ t p e i w steps s₀ s₁ s₂ state, Eval.expr t e steps s₀ = .done target s₁ →
      Eval.expr t i steps s₁ = .done index s₂ → Eval.expr t w steps s₂ = .done value state →
      state.store = s →
      (Eval.expr t (.setIndex p e i w) (steps + 1) s₀ = .aborted ↔
        s.indexSet target index value = .error .aborted) := by
  have reached : (∃ a, target = .list a ∧ (∀ x, index ≠ .number x) ∧
      ReflTransGen s.Held index target) → s.indexSet target index value = .error .aborted := by
    rintro ⟨a, rfl, other, path⟩
    exact indexSet_list_reached loops other path
  refine ⟨⟨?aborts, reached⟩, ?answers, ?list, ?dict, ?plain, indexGet_answers, ?run⟩
  case aborts =>
    intro dead
    by_contra free
    have answers : Answers (s.indexSet target index value) := indexSet_answers loops free
    rw [dead] at answers
    rcases answers with ⟨_, ⟨⟩⟩ | ⟨_, ⟨⟩⟩
  case answers =>
    exact fun alive => indexSet_answers loops fun found => alive (reached found)
  case list =>
    rintro a rfl other away
    exact indexSet_list_unreached loops other away
  case dict =>
    rintro a rfl other
    exact indexSet_dict_other (loops.loopless nofun) other
  case plain =>
    intro list dict
    cases target with
    | list a => exact absurd rfl (list a)
    | dict a => exact absurd rfl (dict a)
    | _ => rfl
  case run =>
    rintro t p e i w steps s₀ s₁ s₂ state first second third rfl
    exact Eval.expr_setIndex_aborted_iff first second third

/-- Written through the one, with the other as the index, they meet. -/
theorem entwined_aborts :
    entwined.LoopsOnlyThrough (.list 0) (.dict 1) ∧
      entwined.indexSet (.list 0) (.dict 1) .null = .error .aborted := by
  have loops : entwined.LoopsOnlyThrough (.list 0) (.dict 1) := by
    have out {u v : Value} (held : entwined.Held u v) (other : u ≠ .list 0) : v = .list 0 := by
      rcases held with ⟨a, rfl, member⟩ | ⟨a, key, rfl, member⟩
      · have found := list_of_mem_items member
        match a with
        | 0 => exact absurd rfl other
        | 1 | _ + 2 => cases found
      · have found := dict_of_mem_entries member
        match a with
        | 1 =>
            rcases Dict.mem_of_mem_insert member with old | new
            · cases old
            · exact congrArg Prod.snd new
        | 0 | _ + 2 => cases found
    intro w _ round
    obtain ⟨_, ⟨-, start⟩, -⟩ := TransGen.head'_iff.1 round
    obtain ⟨_, -, held, other⟩ := TransGen.tail'_iff.1 round
    exact start 0 rfl (out held (other 0 rfl))
  refine ⟨loops, (indexSet_aborts_iff_reached entwined (.list 0) (.dict 1) .null loops).1.2 ?_⟩
  have entry : (entwined.entries 1).find? "k" = some (.list 0) :=
    (Dict.find?_insert _ _ _ _).trans (if_pos rfl)
  exact ⟨0, rfl, nofun, .single (held_entry entry)⟩

end Store

end Script
