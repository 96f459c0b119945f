/-
# Script.Proofs.Store.Render -- what the text of a value depends on

While a list is being written, a value has the text it always has, unless the list is
found inside it (`renderLocked_heeds`).  A value that is no container has a text
of its own, in every store.
-/
import Script.Proofs.Attempt
import Script.Store.Render

namespace Script.Store

set_option autoImplicit false

variable {s : Store} {v : Value}

/-- The text of a value that is no container, as it stands in every store. -/
theorem renderWithin_plain (s s' : Store) {locked locked' : Option Nat} {depth depth' : Nat}
    (plain : v.address? = none) :
    s.renderWithin locked depth v = s'.renderWithin locked' depth' v := by
  cases v with
  | list a => cases plain
  | dict a => cases plain
  | _ => cases depth <;> cases depth' <;> rfl

theorem render_plain (s s' : Store) (plain : v.address? = none) : s.render v = s'.render v :=
  renderWithin_plain s s' plain

theorem renderWithin_heeds (s : Store) (locked : Nat) :
    ∀ (depth : Nat) (v : Value),
      Attempt.Heeds (s.renderWithin (some locked) depth v) (s.renderWithin none depth v) := by
  intro depth
  induction depth with
  | zero =>
      intro v
      cases v <;> exact .refl _
  | succ depth ih =>
      intro v
      cases v with
      | list a =>
          simp only [renderWithin]
          by_cases found : some locked = some a
          · rw [if_pos found]
            exact Attempt.heeds_aborted _
          · rw [if_neg found, if_neg (by simp)]
            exact (Attempt.heeds_mapM ih _).bind fun items => .refl _
      | dict a =>
          simp only [renderWithin]
          refine (Attempt.heeds_mapM (fun entry => ?_) _).bind fun entries => .refl _
          exact (ih entry.2).bind fun text => .refl _
      | _ => exact .refl _

/-- A locked list changes nothing but that it must not be found. -/
theorem renderLocked_heeds (s : Store) (locked : Nat) (v : Value) :
    Attempt.Heeds (s.renderLocked locked v) (s.render v) :=
  s.renderWithin_heeds locked _ v

end Script.Store
