/-
# Script.Proofs.Access.Faults -- what operations on values find fault with

An operation on values looks at the kinds of its operands and at their bounds, and at no
name: where it faults, the fault is one of these two categories.  To render and to compare
finds no fault at all.
-/
import Script.Conversion
import Script.Access
import Script.Operator

namespace Script

set_option autoImplicit false

namespace Attempt

variable {α β : Type}

/-- If the operation faults, it is the kind or the bounds of a value that it finds fault with. -/
def Confined (x : Attempt α) : Prop :=
  ∀ cause, x = .error (.fault cause) → cause.category = .type ∨ cause.category = .bounds

theorem confined_ok (a : α) : Confined (.ok a) :=
  nofun

theorem confined_endless : Confined (.error .endless : Attempt α) :=
  nofun

theorem confined_aborted : Confined (.error .aborted : Attempt α) :=
  nofun

theorem confined_type {cause : Fault} (type : cause.category = .type) :
    Confined (fail cause : Attempt α) := by
  rintro _ ⟨⟩
  exact .inl type

theorem confined_bounds {cause : Fault} (bounds : cause.category = .bounds) :
    Confined (fail cause : Attempt α) := by
  rintro _ ⟨⟩
  exact .inr bounds

theorem Confined.bind {x : Attempt α} {f : α → Attempt β} (first : Confined x)
    (second : ∀ a, Confined (f a)) : Confined (x >>= f) := by
  cases x with
  | ok a => exact second a
  | error halt =>
      rintro cause ⟨⟩
      exact first cause rfl

theorem confined_mapM {f : α → Attempt β} (all : ∀ item, Confined (f item)) :
    ∀ items : List α, Confined (items.mapM f)
  | [] => confined_ok []
  | item :: items => by
      rw [List.mapM_cons]
      exact (all item).bind fun b => (confined_mapM all items).bind fun bs => confined_ok (b :: bs)

theorem confined_allM {p : α → Attempt Bool} (all : ∀ item, Confined (p item)) :
    ∀ items : List α, Confined (items.allM p)
  | [] => confined_ok true
  | item :: items => by
      refine (all item).bind fun holds => ?_
      cases holds with
      | true => exact confined_allM all items
      | false => exact confined_ok false

end Attempt

namespace Store

open Attempt

variable (s : Store)

/-! ## Rendering and comparing -/

theorem confined_renderWithin (locked : Option Nat) :
    ∀ (depth : Nat) (v : Value), Confined (s.renderWithin locked depth v) := by
  intro depth
  induction depth with
  | zero =>
      intro v
      cases v with
      | list a => exact confined_endless
      | dict a => exact confined_endless
      | _ => exact confined_ok _
  | succ depth ih =>
      intro v
      cases v with
      | list a =>
          simp only [renderWithin]
          split
          · exact confined_aborted
          · exact (confined_mapM ih _).bind fun items => confined_ok _
      | dict a =>
          simp only [renderWithin]
          refine (confined_mapM (fun entry => ?_) _).bind fun entries => confined_ok _
          exact (ih entry.2).bind fun text => confined_ok _
      | _ => exact confined_ok _

theorem confined_render (v : Value) : Confined (s.render v) :=
  s.confined_renderWithin none _ v

theorem confined_equalWithin :
    ∀ (depth : Nat) (v w : Value), Confined (s.equalWithin depth v w) := by
  intro depth
  induction depth with
  | zero =>
      intro v w
      cases v <;> cases w
      case list.list a b =>
        simp only [equalWithin]
        split
        · exact confined_ok _
        · exact confined_endless
      case dict.dict a b =>
        simp only [equalWithin]
        split
        · exact confined_ok _
        · exact confined_endless
      all_goals exact confined_ok _
  | succ depth ih =>
      intro v w
      cases v <;> cases w
      case list.list a b =>
        simp only [equalWithin]
        split
        · exact confined_ok _
        split
        · exact confined_allM (fun pair : Value × Value => ih pair.1 pair.2) _
        · exact confined_ok _
      case dict.dict a b =>
        simp only [equalWithin]
        split
        · exact confined_ok _
        split
        · refine confined_allM (fun entry => ?_) _
          split
          · exact ih _ _
          · exact confined_ok _
        · exact confined_ok _
      all_goals exact confined_ok _

/-! ## Access -/

theorem confined_slot {text : Value → Attempt String} (rendered : ∀ v, Confined (text v))
    (index : Value) (length : Nat) : Confined (slot text index length) := by
  unfold slot
  split
  · split
    · split
      · exact confined_ok _
      · exact confined_bounds rfl
    · exact confined_type rfl
  · exact (rendered index).bind fun got => confined_type rfl

theorem confined_key (index : Value) : Confined (s.key index) := by
  unfold key
  split
  · exact confined_ok _
  · exact (s.confined_render index).bind fun got => confined_type rfl

theorem confined_indexGet (target index : Value) : Confined (s.indexGet target index) := by
  cases target with
  | list a => exact (confined_slot s.confined_render index _).bind fun i => confined_ok _
  | string text => exact (confined_slot s.confined_render index _).bind fun i => confined_ok _
  | dict a => exact (s.confined_key index).bind fun k => confined_ok _
  | _ => exact confined_bounds rfl

theorem confined_place (target index : Value) : Confined (s.place target index) := by
  cases target with
  | list a =>
      refine (confined_slot (fun v => ?_) index _).bind fun i => confined_ok _
      exact s.confined_renderWithin (some a) _ v
  | dict a => exact (s.confined_key index).bind fun k => confined_ok _
  | _ => exact confined_bounds rfl

theorem confined_fieldGet (target : Value) (name : String) :
    Confined (s.fieldGet target name) := by
  cases target with
  | dict a =>
      simp only [fieldGet]
      split
      · exact confined_ok _
      · exact confined_bounds rfl
  | _ => exact confined_bounds rfl

/-! ## Operators and conversions -/

theorem confined_coerce (v : Value) : Confined (s.coerce v) := by
  unfold coerce
  split
  · exact confined_ok _
  · split
    · exact confined_ok _
    · exact confined_type rfl
  · exact (s.confined_render v).bind fun got => confined_type rfl

theorem confined_arithmetic (f : Float → Float → Float) (v w : Value) :
    Confined (s.arithmetic f v w) :=
  (s.confined_coerce v).bind fun _ => (s.confined_coerce w).bind fun _ => confined_ok _

theorem confined_compare (texts : String → String → Bool) (numbers : Float → Float → Bool)
    (v w : Value) : Confined (s.compare texts numbers v w) := by
  unfold compare
  split
  · exact confined_ok _
  · exact (s.confined_coerce v).bind fun _ => (s.confined_coerce w).bind fun _ => confined_ok _

theorem confined_plus (v w : Value) : Confined (s.plus v w) := by
  have joined : Confined (do
      let a ← s.render v
      let b ← s.render w
      .ok (.string (a ++ b)) : Attempt Value) :=
    (s.confined_render v).bind fun a => (s.confined_render w).bind fun b => confined_ok _
  unfold plus
  split
  · exact joined
  · exact joined
  · exact s.confined_arithmetic _ v w

theorem confined_binaryValue (op : BinaryOp) (v w : Value) :
    Confined (s.binaryValue op v w) := by
  cases op with
  | or | and => exact confined_ok _
  | equal | notEqual => exact (s.confined_equalWithin _ v w).bind fun same => confined_ok _
  | less | lessEqual | greater | greaterEqual => exact s.confined_compare _ _ v w
  | add => exact s.confined_plus v w
  | subtract | multiply | divide | remainder => exact s.confined_arithmetic _ v w

theorem confined_binary (op : BinaryOp) (v w : Value) : Confined (s.binary op v w) := by
  unfold binary
  split
  · exact confined_ok _
  · exact (s.confined_binaryValue _ _ _).bind fun value => confined_ok _

theorem confined_unary (op : UnaryOp) (v : Value) : Confined (s.unary op v) := by
  cases op with
  | negate => exact (s.confined_coerce v).bind fun x => confined_ok _
  | not => exact confined_ok _

theorem confined_sizeOf (v : Value) : Confined (s.sizeOf v) := by
  unfold sizeOf
  split
  · exact confined_ok _
  · exact confined_ok _
  · exact confined_ok _
  · exact confined_type rfl

theorem confined_textOf (v : Value) : Confined (s.textOf v) := by
  unfold textOf
  split
  · split
    · exact confined_ok _
    · exact confined_bounds rfl
  · exact s.confined_render v

theorem confined_typeOf (v : Value) : Confined (s.typeOf v) := by
  unfold typeOf
  split
  · exact confined_ok _
  · exact (s.confined_render v).bind fun got => confined_type rfl

end Store

end Script
