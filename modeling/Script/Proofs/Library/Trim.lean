/-
# Script.Proofs.Library.Trim -- taking the blanks off either end of a text

`trim` has two loops without a counter, which go on as long as a flag is put up again in each round.
A round moves an index past one blank, and the loop is over in the round that finds none, or finds
the other end (`Strips`).  What the first loop passes and the second one does is read off the
characters of the text (`Trims`), so the number of rounds is known before (`Passes`), and then
`statement_stripLoop` carries out both of them: they differ in the operators and in the end that
moves.  In a text of blanks the first index comes to stand behind the last one, which may be `-1`
(`Number.before`), and nothing is read there.
-/
import Script.Proofs.Eval.Settled
import Script.Proofs.Library.Conversions

namespace Script

set_option autoImplicit false

open Number (ofNat before)

namespace Library

open Eval

variable {t : FunctionTable} {c : State} {frame : Float → Bool → List (String × Value)}
  {word stop text : String} {x x' y : Float} {d : Char} {op step : BinaryOp} {line : Nat}
  {frames : List (List (String × Value))}

/-! ## Moving one end -/

/-- The variables while an end is moved: `word` is the number, `moving` the flag, and the text and
the other end stay what they are. -/
structure Strips (frame : Float → Bool → List (String × Value)) (word stop text : String)
    (y : Float) : Prop where
  text : ∀ x b, (frame x b).lookup "text" = some (.string text)
  own : ∀ x b, (frame x b).lookup word = some (.number x)
  stop : ∀ x b, (frame x b).lookup stop = some (.number y)
  moving : ∀ x b, (frame x b).lookup "moving" = some (.bool b)
  call : ∀ x b, (frame x b).lookup "toNumber" = none
  move : ∀ x x' b, Scope.bind word (.number x') (frame x b) = frame x' b
  mark : ∀ x b b', Scope.bind "moving" (.bool b') (frame x b) = frame x b'

/-- The scopes of the bodies bind nothing. -/
theorem lookup_inside_empty {bindings : List (String × Value)} {name : String} {v : Value}
    (bound : bindings.lookup name = some v) (empty : ∀ inner ∈ frames, inner = []) :
    ((c.holding bindings).inside frames).scopes.lookup name = some v :=
  (Scopes.lookup_inside (fun inner here => empty inner here ▸ rfl) _).trans
    (Scopes.lookup_holding_of_bound bound _)

namespace Strips

variable {b b' : Bool} (strips : Strips frame word stop text y)
  (empty : ∀ inner ∈ frames, inner = [])
include strips empty

theorem assign_own : ((c.holding (frame x b)).inside frames).assign word (.number x') =
    (c.holding (frame x' b)).inside frames := by
  rw [State.assign_inside _ (fun inner here => empty inner here ▸ rfl)
    (Scopes.lookup_holding_of_bound (strips.own x b) _), State.assign_holding (strips.own x b),
    strips.move]

theorem assign_moving : ((c.holding (frame x b)).inside frames).assign "moving" (.bool b') =
    (c.holding (frame x b')).inside frames := by
  rw [State.assign_inside _ (fun inner here => empty inner here ▸ rfl)
    (Scopes.lookup_holding_of_bound (strips.moving x b) _),
    State.assign_holding (strips.moving x b), strips.mark]

variable {p p₁ p₂ p₃ : Position} {column steps : Nat}

/-- Whether the end has not come to the other one. -/
theorem expr_apart (compares : op.Compares) (answer : op.holds x y = b') :
    expr t (.binary p op (.name p₁ word) (.name p₂ stop)) (steps + 2)
        ((c.holding (frame x b)).inside frames) =
      .done (.bool b') ((c.holding (frame x b)).inside frames) :=
  answer ▸ expr_binary (expr_name (lookup_inside_empty (strips.own x b) empty))
    (expr_name (lookup_inside_empty (strips.stop x b) empty))
    (Store.binary_of_coerce compares rfl rfl)

variable (unshadowed : c.scopes.target "toNumber" = "toNumber")
  (read : c.store.indexGet (.string text) (.number x) = .ok (.string (String.singleton d)))
include unshadowed read

/-- Whether there is a blank at the end. -/
theorem expr_blank (answer : decide (d.toNat ≤ 32) = b') : expr t (.binary p .lessEqual
        (.call p₁ "toNumber" [itemAt "text" line column (.name p₂ word)])
        (.number p₃ (ofNat 32))) (steps + 6) ((c.holding (frame x b)).inside frames) =
      .done (.bool b') ((c.holding (frame x b)).inside frames) := by
  have outside : ((c.holding (frame x b)).inside frames).scopes.lookup "toNumber" =
      c.scopes.lookup "toNumber" :=
    (Scopes.lookup_inside (fun inner here => empty inner here ▸ rfl) _).trans
      ((c.scopes.lookup_holding _ _).trans (by rw [strips.call, Option.none_or]))
  have visible : ((c.holding (frame x b)).inside frames).scopes.target "toNumber" = "toNumber" := by
    rw [Scopes.target, outside]
    exact unshadowed
  have item : expr t (itemAt "text" line column (.name p₂ word)) (steps + 2)
      ((c.holding (frame x b)).inside frames) = .done (.string (String.singleton d)) _ :=
    expr_index (expr_name (lookup_inside_empty (strips.text x b) empty))
      (expr_name (lookup_inside_empty (strips.own x b) empty)) read
  have small : d.toNat < 2 ^ 53 := (Text.code_lt d).trans (by decide)
  exact expr_binary (expr_toNumber visible item (Store.coerce_singleton d)) (expr_number _)
    (answer ▸ Store.binary_lessEqual_ofNat small (by decide))

end Strips

/-! ## One step, and all of them -/

namespace Strips

variable (strips : Strips frame word stop text y)
include strips

/-- The flag is taken down, and put up again if the end is moved. -/
theorem inScope_stripStep {b : Bool} {yes : List Stmt} {rest : Option (List Stmt)} {e : Expr}
    {p : Position} {steps : Nat}
    (body : stripStep line word op stop step =
      [setTo (line + 1) 9 "moving" (.bool ⟨line + 1, 18⟩ false), .branch p e yes rest])
    (decided : statement t (.branch p e yes rest) (steps + 11)
      ((c.holding (frame x false)).inside [[], []]) =
        .done .next ((c.holding (frame x' b)).inside [[], []])) :
    Run.inScope (statements t (stripStep line word op stop step) (steps + 13))
        ((c.holding (frame x true)).inside [[]]) =
      .done .next ((c.holding (frame x' b)).inside [[]]) := by
  have marked : statement t (setTo (line + 1) 9 "moving" (.bool ⟨line + 1, 18⟩ false)) (steps + 12)
      ((c.holding (frame x true)).inside [[], []]) =
        .done .next ((c.holding (frame x false)).inside [[], []]) :=
    (statement_expr (expr_assign (expr_bool false))).trans
      (congrArg _ (strips.assign_moving (by simp)))
  rw [body]
  exact inScope_done
    ((statements_next marked).trans ((statements_next decided).trans statements_nil))

variable (compares : op.Compares)
include compares

/-- The end stays where it is if it has come to the other one. -/
theorem inScope_stripStep_ends (halts : op.holds x y = false) (steps : Nat) :
    Run.inScope (statements t (stripStep line word op stop step) (steps + 13))
        ((c.holding (frame x true)).inside [[]]) =
      .done .next ((c.holding (frame x false)).inside [[]]) :=
  strips.inScope_stripStep rfl
    (statement_branch_none (strips.expr_apart (by simp) compares halts) rfl)

variable (unshadowed : c.scopes.target "toNumber" = "toNumber") (apart : op.holds x y = true)
  (read : c.store.indexGet (.string text) (.number x) = .ok (.string (String.singleton d)))
include unshadowed apart read

/-- The end stays where it is if there is no blank at it. -/
theorem inScope_stripStep_stays (solid : 32 < d.toNat) (steps : Nat) :
    Run.inScope (statements t (stripStep line word op stop step) (steps + 13))
        ((c.holding (frame x true)).inside [[]]) =
      .done .next ((c.holding (frame x false)).inside [[]]) := by
  have empty : ∀ inner : List (String × Value), inner ∈ [[], [], []] → inner = [] := by simp
  exact strips.inScope_stripStep rfl
    ((statement_branch_yes (strips.expr_apart (by simp) compares apart) rfl).trans
      (inScope_statement (statement_branch_none
        (strips.expr_blank empty unshadowed read (decide_eq_false (not_le.2 solid))) rfl)))

/-- The end is moved by one if there is a blank at it. -/
theorem inScope_stripStep_moves (blank : d.toNat ≤ 32)
    (moved : c.store.binary step (.number x) (.number (ofNat 1)) = .ok (.value (.number x')))
    (steps : Nat) :
    Run.inScope (statements t (stripStep line word op stop step) (steps + 13))
        ((c.holding (frame x true)).inside [[]]) =
      .done .next ((c.holding (frame x' true)).inside [[]]) := by
  have outer : ∀ inner : List (String × Value), inner ∈ [[], [], []] → inner = [] := by simp
  have empty : ∀ inner : List (String × Value), inner ∈ [[], [], [], []] → inner = [] := by simp
  have set : statement t (setTo (line + 4) 17 word
      (.binary ⟨line + 4, 2 * word.length + 21⟩ step (.name ⟨line + 4, word.length + 20⟩ word)
        (.number ⟨line + 4, 2 * word.length + 23⟩ (ofNat 1)))) (steps + 7)
      ((c.holding (frame x false)).inside [[], [], [], []]) =
        .done .next ((c.holding (frame x' false)).inside [[], [], [], []]) :=
    (statement_expr (expr_assign (expr_binary (expr_name (lookup_inside_empty (strips.own x false)
      empty)) (expr_number _) moved))).trans (congrArg _ (strips.assign_own empty))
  have mark : statement t (setTo (line + 5) 17 "moving" (.bool ⟨line + 5, 26⟩ true)) (steps + 6)
      ((c.holding (frame x' false)).inside [[], [], [], []]) =
        .done .next ((c.holding (frame x' true)).inside [[], [], [], []]) :=
    (statement_expr (expr_assign (expr_bool true))).trans (congrArg _ (strips.assign_moving empty))
  exact strips.inScope_stripStep rfl
    ((statement_branch_yes (strips.expr_apart (by simp) compares apart) rfl).trans
      (inScope_statement ((statement_branch_yes
        (strips.expr_blank outer unshadowed read (decide_eq_true blank)) rfl).trans
          (inScope_done ((statements_next set).trans
            ((statements_next mark).trans statements_nil))))))

end Strips

/-! ## Moving it as far as it goes -/

/-- There are blanks at the first `m` of these positions, and then comes no blank or the other
end. -/
structure Passes (s : Store) (text : String) (op step : BinaryOp) (x : Nat → Float) (y : Float)
    (m : Nat) : Prop where
  apart : ∀ k < m, op.holds (x k) y = true
  blank : ∀ k < m, ∃ d : Char, d.toNat ≤ 32 ∧
    s.indexGet (.string text) (.number (x k)) = .ok (.string (String.singleton d))
  moved : ∀ k < m, s.binary step (.number (x k)) (.number (ofNat 1)) =
    .ok (.value (.number (x (k + 1))))
  halts : op.holds (x m) y = false ∨ op.holds (x m) y = true ∧ ∃ d : Char, 32 < d.toNat ∧
    s.indexGet (.string text) (.number (x m)) = .ok (.string (String.singleton d))

theorem statement_stripLoop {x : Nat → Float} {m : Nat} (strips : Strips frame word stop text y)
    (compares : op.Compares) (unshadowed : c.scopes.target "toNumber" = "toNumber")
    (passes : Passes c.store text op step x y m) {steps : Nat} (enough : m + 16 ≤ steps) :
    statement t (stripLoop line word op stop step) steps (c.holding (frame (x 0) true)) =
      .done .next (c.holding (frame (x m) false)) := by
  obtain ⟨more, rfl⟩ : ∃ more, steps = more + m + 16 := ⟨steps - (m + 16), by omega⟩
  let states (k : Nat) : State := (c.holding (frame (x k) true)).inside [[]]
  have asked (k : Nat) (b : Bool) (p : Position) (steps : Nat) :
      expr t (.name p "moving") (steps + 1) ((c.holding (frame (x k) b)).inside [[]]) =
        .done (.bool b) ((c.holding (frame (x k) b)).inside [[]]) :=
    expr_name (lookup_inside_empty (strips.moving (x k) b) (by simp))
  have turns : ∀ k < m, ∀ r, r = states k → ∃ r', r' = states (k + 1) ∧
      Leads t (some (.name ⟨line, 12⟩ "moving")) none (stripStep line word op stop step) 14 1
        r r' := by
    rintro k less _ rfl
    obtain ⟨d, blank, read⟩ := passes.blank k less
    refine ⟨_, rfl, fun steps enough => ?_⟩
    obtain ⟨more, rfl⟩ := Nat.exists_eq_add_of_le' enough
    exact rounds_again_bare (asked k true _ _) rfl (strips.inScope_stripStep_moves compares
      unshadowed (passes.apart k less) read blank (passes.moved k less) (more + 1))
  obtain ⟨_, rfl, leads⟩ := leads_of_rounds (s := states 0) (fun k r => r = states k) rfl turns
  have last : Run.inScope (statements t (stripStep line word op stop step) (more + 14)) (states m) =
      .done .next ((c.holding (frame (x m) false)).inside [[]]) := by
    rcases passes.halts with halts | ⟨apart, d, solid, read⟩
    · exact strips.inScope_stripStep_ends compares halts (more + 1)
    · exact strips.inScope_stripStep_stays compares unshadowed apart read solid (more + 1)
  have ended : rounds t (some (.name ⟨line, 12⟩ "moving")) none
      (stripStep line word op stop step) (more + m + 15) (states 0) =
        .done .next ((c.holding (frame (x m) false)).holding []) := by
    rw [Nat.add_right_comm, leads (more + 15) (by omega)]
    exact (rounds_again_bare (asked m true _ _) rfl last).trans
      (rounds_over (asked m false _ _) rfl)
  exact statement_loop_bare ended

/-! ## What is left of a text -/

/-- A character up to the space, in the order of the codes. -/
def blank (c : Char) : Bool :=
  c.toNat ≤ 32

theorem blank_iff : blank d = true ↔ d.toNat ≤ 32 :=
  decide_eq_true_iff

theorem not_blank_iff : blank d = false ↔ 32 < d.toNat :=
  decide_eq_false_iff_not.trans not_le

/-- The characters without the blanks before them and behind them. -/
def trimmed (cs : List Char) : List Char :=
  (cs.dropWhile blank).rdropWhile blank

/-- The middle is what is left when all blanks are taken off in front, and then all at the back. -/
structure Trims (cs front middle back : List Char) : Prop where
  split : cs = front ++ middle ++ back
  inFront : ∀ c ∈ front, c.toNat ≤ 32
  atBack : ∀ c ∈ back, c.toNat ≤ 32
  first : ∀ c ∈ middle.head?, 32 < c.toNat
  last : ∀ c ∈ middle.getLast?, 32 < c.toNat
  alone : middle = [] → back = []

variable {cs front middle back : List Char}

theorem trims_trimmed (cs : List Char) :
    Trims cs (cs.takeWhile blank) (trimmed cs) ((cs.dropWhile blank).rtakeWhile blank) where
  split := by
    rw [trimmed, List.append_assoc, List.rdropWhile_append_rtakeWhile,
      List.takeWhile_append_dropWhile]
  inFront c member := blank_iff.1 (List.mem_takeWhile_imp member)
  atBack c member := blank_iff.1 (List.mem_rtakeWhile_imp member)
  first c head := by
    obtain ⟨more, whole⟩ := List.rdropWhile_prefix blank (l := cs.dropWhile blank)
    have found : cs.find? (!blank ·) = some c := by
      rw [List.find?_not_eq_head?_dropWhile, ← whole, List.head?_append]
      exact congrArg (Option.or · _) head
    exact not_blank_iff.1 (by simpa using List.find?_some found)
  last c last := by
    obtain ⟨there, rfl⟩ := List.mem_getLast?_eq_getLast last
    exact not_blank_iff.1 (eq_false_of_ne_true (List.rdropWhile_last_not blank _ there))
  alone none := by
    have all := List.rdropWhile_eq_nil_iff.1 none
    have nothing : cs.dropWhile blank = [] := by
      by_contra there
      exact Bool.false_ne_true
        ((List.head_dropWhile_not blank there).symm.trans (all _ (List.head_mem there)))
    rw [nothing, List.rtakeWhile_nil]

namespace Trims

/-- There is nothing more to be taken off from what is left. -/
theorem again (trims : Trims cs front middle back) : Trims middle [] middle [] where
  split := by simp
  inFront := nofun
  atBack := nofun
  first := trims.first
  last := trims.last
  alone _ := rfl

variable {s : Store} (trims : Trims text.toList front middle back) (small : text.length < 2 ^ 53)

omit trims in
include small in
theorem read {i : Nat} (there : text.toList[i]? = some d) :
    s.indexGet (.string text) (.number (ofNat i)) = .ok (.string (String.singleton d)) := by
  obtain ⟨inside, -⟩ := List.getElem?_eq_some_iff.1 there
  rw [String.length_toList] at inside
  refine (s.hasParts_string text).read (Number.value?_ofNat (inside.trans small)) ?_
  rw [List.getElem?_map, there]
  rfl

include trims small

/-- The first loop passes what is taken off in front. -/
theorem passes_front : Passes s text .lessEqual .add ofNat (before text.length) front.length := by
  obtain ⟨split, inFront, -, first, -, alone⟩ := trims
  have length : text.length = front.length + middle.length + back.length := by
    rw [← String.length_toList, split, List.length_append, List.length_append]
  have apart {k : Nat} (le : k ≤ front.length) :
      BinaryOp.lessEqual.holds (ofNat k) (before text.length) = decide (k < text.length) :=
    decide_eq_decide.2 (Number.ofNat_le_before (by omega) small)
  refine ⟨fun k less => ?_, fun k less => ?_, fun k less => ?_, ?_⟩
  · rw [apart less.le]
    exact decide_eq_true (by omega)
  · refine ⟨front[k], inFront _ (List.getElem_mem less), read small ?_⟩
    rw [split, List.append_assoc, List.getElem?_append_left less, List.getElem?_eq_getElem less]
  · exact Store.binary_add_ofNat (by omega)
  · rw [apart le_rfl]
    cases left : middle with
    | nil =>
        have none := alone left
        subst left none
        exact .inl (decide_eq_false (by simp at length; omega))
    | cons c rest =>
        subst left
        refine .inr ⟨decide_eq_true (by simp at length; omega), c, first c rfl, read small ?_⟩
        simp [split]

/-- The second loop passes what is taken off at the back. -/
theorem passes_back : Passes s text .greaterEqual .subtract (fun k => before (text.length - k))
    (ofNat front.length) back.length := by
  obtain ⟨split, -, atBack, -, last, -⟩ := trims
  have length : text.length = front.length + middle.length + back.length := by
    rw [← String.length_toList, split, List.length_append, List.length_append]
  have apart (k : Nat) : BinaryOp.greaterEqual.holds (before (text.length - k))
      (ofNat front.length) = decide (front.length < text.length - k) :=
    decide_eq_decide.2 (Number.ofNat_le_before (by omega) (by omega))
  refine ⟨fun k less => ?_, fun k less => ?_, fun k less => ?_, ?_⟩
  · rw [apart]
    exact decide_eq_true (by omega)
  · obtain ⟨i, position⟩ : ∃ i, text.length - k = i + 1 := ⟨text.length - k - 1, by omega⟩
    have inside : i - (front ++ middle).length < back.length := by
      rw [List.length_append]
      omega
    refine ⟨back[i - (front ++ middle).length], atBack _ (List.getElem_mem inside), ?_⟩
    rw [position, Number.before_succ (by omega)]
    refine read small ?_
    rw [split, List.getElem?_append_right (by rw [List.length_append]; omega),
      List.getElem?_eq_getElem inside]
  · obtain ⟨i, position⟩ : ∃ i, text.length - k = i + 1 := ⟨text.length - k - 1, by omega⟩
    have next : text.length - (k + 1) = i := by omega
    rw [position, Number.before_succ (by omega), next]
    rfl
  · rw [apart]
    rcases List.eq_nil_or_concat middle with rfl | ⟨rest, c, rfl⟩
    · exact .inl (decide_eq_false (by simp at length; omega))
    · have next : text.length - back.length = front.length + rest.length + 1 := by
        simp at length
        omega
      refine .inr ⟨decide_eq_true (by omega), c, last c (by simp), ?_⟩
      rw [next, Number.before_succ (by omega)]
      exact read small (by simp [split])

end Trims

/-! ## The function -/

/-- The variables while the ends are moved. -/
def ends (text : String) (start stop : Float) (moving : Bool) : List (String × Value) :=
  [("text", .string text), ("start", .number start), ("end", .number stop),
    ("moving", .bool moving)]

theorem strips_start (text : String) (y : Float) :
    Strips (fun x b => ends text x y b) "start" "end" text y :=
  ⟨fun _ _ => rfl, fun _ _ => rfl, fun _ _ => rfl, fun _ _ => rfl, fun _ _ => rfl,
    fun _ _ _ => rfl, fun _ _ _ => rfl⟩

theorem strips_end (text : String) (y : Float) :
    Strips (fun x b => ends text y x b) "end" "start" text y :=
  ⟨fun _ _ => rfl, fun _ _ => rfl, fun _ _ => rfl, fun _ _ => rfl, fun _ _ => rfl,
    fun _ _ _ => rfl, fun _ _ _ => rfl⟩

/-- The first `k` characters between the ends are added, and the counter stands at the next one. -/
def Copied (c : State) (text : String) (front middle back : List Char) (k : Nat) (r : State) :
    Prop :=
  ∃ r₀, r = r₀.counting "i" (front.length + k) ∧
    Gathered c (ends text (ofNat front.length) (before (text.length - back.length)) false) "result"
      c.store.size true (letters (middle.take k)) r₀

theorem Trims.length (trims : Trims text.toList front middle back) :
    text.length = front.length + middle.length + back.length := by
  rw [← String.length_toList, trims.split, List.length_append, List.length_append]

section

variable {r : State} {k : Nat} (trims : Trims text.toList front middle back)
  (small : text.length < 2 ^ 53) (copied : Copied c text front middle back k r)
include trims small copied

/-- Whether there is a further character. -/
theorem expr_inMiddle (le : k ≤ middle.length) (steps : Nat) :
    expr t inMiddle (steps + 2) r = .done (.bool (k < middle.length)) r := by
  obtain ⟨r₀, rfl, gathers⟩ := copied
  have length := trims.length
  have answer : BinaryOp.lessEqual.holds (ofNat (front.length + k))
      (before (text.length - back.length)) = decide (k < middle.length) :=
    decide_eq_decide.2 ((Number.ofNat_le_before (by omega) (by omega)).trans (by omega))
  exact answer ▸ expr_binary (expr_name r₀.lookup_counting)
    (expr_name (((gathers.keeps_counting _).lookup "end" (by simp)).trans rfl))
    (Store.binary_of_coerce .lessEqual rfl rfl)

/-- A character is added, and the counter goes on. -/
theorem leads_addMiddle (less : k < middle.length) :
    ∃ r', Copied c text front middle back (k + 1) r' ∧
      Leads t (some inMiddle) (some nextInMiddle) [addPart true "result" "text" 181 9] 9 1
        r r' := by
  have asked := expr_inMiddle (t := t) trims small copied less.le
  obtain ⟨r₀, rfl, gathers⟩ := copied
  have length := trims.length
  have reading : Reading (r₀.counting "i" (front.length + k)) "text" "i" (.string text)
      (letters text.toList) (front.length + k) :=
    gathers.reading (.text text) (by rwa [length_letters, String.length_toList]) (by simp) rfl _
  have there : (letters text.toList)[front.length + k]? =
      some (.string (String.singleton middle[k])) := by
    rw [letters, List.getElem?_map, trims.split, List.append_assoc,
      List.getElem?_append_right (Nat.le_add_right ..), Nat.add_sub_cancel_left,
      List.getElem?_append_left less, List.getElem?_eq_getElem less]
    rfl
  have outside : ∀ inner ∈ [[], [("i", Value.number (ofNat (front.length + k)))]],
      inner.lookup "result" = none := by simp
  obtain ⟨r', gathers', added⟩ := gathers.statement_addPart (t := t) outside
    (reading.inside (by simp : ∀ inner ∈ [[]], ∀ word ∈ ["text", "i"], inner.lookup word = none))
    there fun _ => ⟨_, rfl⟩
  refine ⟨_, ⟨r', rfl, ?_⟩, fun steps enough => ?_⟩
  · rwa [← List.take_append_getElem less, letters, List.map_append]
  · obtain ⟨more, rfl⟩ := Nat.exists_eq_add_of_le' enough
    have passed : Run.inScope (statements t [addPart true "result" "text" 181 9] (more + 9))
        (r₀.counting "i" (front.length + k)) =
          .done .next (r'.counting "i" (front.length + k)) :=
      inScope_statement (added 181 9 (more + 1))
    have next : front.length + k + 1 < 2 ^ 53 := by omega
    exact rounds_again (asked _) (decide_eq_true less) passed (expr_counterNext next)

end

/-- The characters between the ends are added to the result. -/
theorem statement_middleLoop {r : State} (trims : Trims text.toList front middle back)
    (small : text.length < 2 ^ 53)
    (begun : Gathered c (ends text (ofNat front.length) (before (text.length - back.length)) false)
      "result" c.store.size true [] r) :
    ∃ r', Gathered c (ends text (ofNat front.length) (before (text.length - back.length)) false)
        "result" c.store.size true (letters middle) r' ∧
      ∀ steps, middle.length + 11 ≤ steps →
        statement t middleLoop steps r = .done .next r' := by
  have start : r.scopes.lookup "start" = some (.number (ofNat front.length)) :=
    (begun.keeps.lookup "start" (by simp)).trans rfl
  have first : Copied c text front middle back 0 (r.counting "i" front.length) := ⟨r, rfl, begun⟩
  obtain ⟨_, copied, leads⟩ := leads_of_rounds (t := t) (Copied c text front middle back) first
    fun k less r copied => leads_addMiddle trims small copied less
  have asked := expr_inMiddle (t := t) trims small copied le_rfl
  obtain ⟨r', rfl, gathers⟩ := copied
  rw [List.take_length] at gathers
  refine ⟨r', gathers, fun steps enough => ?_⟩
  obtain ⟨more, rfl⟩ : ∃ more, steps = more + middle.length + 11 :=
    ⟨steps - (middle.length + 11), by omega⟩
  have ended : rounds t (some inMiddle) (some nextInMiddle) [addPart true "result" "text" 181 9]
      (more + middle.length + 10) (r.counting "i" front.length) =
        .done .next (r'.counting "i" (front.length + middle.length)) := by
    rw [Nat.add_right_comm, leads (more + 10) (by omega)]
    exact rounds_over (asked _) (decide_eq_false (lt_irrefl _))
  exact statement_loop_declared (expr_name start) ended

/-- What is left of the text is returned. -/
theorem statements_trim (trims : Trims text.toList front middle back)
    (small : text.length < 2 ^ 53) (sized : c.scopes.target "size" = "size")
    (unshadowed : c.scopes.target "toNumber" = "toNumber") {steps : Nat}
    (enough : text.length + 22 ≤ steps) :
    ∃ bindings, statements t trim.body steps (c.holding [("text", .string text)]) =
      .done (.returned (.string (String.ofList middle))) (c.holding bindings) := by
  let a := ofNat front.length
  let b := before (text.length - back.length)
  have length := trims.length
  obtain ⟨more, rfl⟩ : ∃ more, steps = more + text.length + 22 :=
    ⟨steps - (text.length + 22), by omega⟩
  have visible : (c.holding [("text", .string text), ("start", .number (ofNat 0))]).scopes.target
      "size" = "size" := sized
  have cleared : statement t (stripLoop 160 "start" .lessEqual "end" .add)
      (more + text.length + 18) (c.holding (ends text (ofNat 0) (before text.length) true)) =
        .done .next (c.holding (ends text a (before text.length) false)) :=
    statement_stripLoop (strips_start text _) .lessEqual unshadowed (trims.passes_front small)
      (by omega)
  have again : statement t (setTo 169 5 "moving" (.bool ⟨169, 14⟩ true)) (more + text.length + 17)
      (c.holding (ends text a (before text.length) false)) =
        .done .next (c.holding (ends text a (before text.length) true)) := by
    refine (statement_expr (expr_assign (expr_bool true))).trans ?_
    rw [State.assign_holding (rfl : (ends text a (before text.length) false).lookup "moving" = _)]
    rfl
  have cut : statement t (stripLoop 170 "end" .greaterEqual "start" .subtract)
      (more + text.length + 16) (c.holding (ends text a (before text.length) true)) =
        .done .next (c.holding (ends text a b false)) :=
    statement_stripLoop (strips_end text a) .greaterEqual unshadowed (trims.passes_back small)
      (by omega)
  have begun : Gathered c (ends text a b false) "result" c.store.size true []
      (c.holding (Scope.bind "result" (.string "") (ends text a b false))) :=
    ⟨_, c.store, .refl _ _, c.store.made_text _ "", rfl⟩
  obtain ⟨_, ⟨u, store, grows, made, rfl⟩, copied⟩ :=
    statement_middleLoop (t := t) trims small begun
  obtain rfl := grows.kept rfl
  obtain rfl := made.spells.eq_string
  let bindings := Scope.bind "result" (.string (String.ofList middle)) (ends text a b false)
  have returned : statement t (returnResult 183) (more + text.length + 13) (c.holding bindings) =
      .done (.returned (.string (String.ofList middle))) (c.holding bindings) :=
    statement_return (expr_name rfl)
  refine ⟨bindings, ?_⟩
  calc statements t trim.body (more + text.length + 22) (c.holding [("text", .string text)])
    _ = statements t (trim.body.drop 2) (more + text.length + 20)
        (c.holding [("text", .string text), ("start", .number (ofNat 0)),
          ("end", .number (before text.length))]) :=
      (statements_next (statement_declare (expr_number _) rfl)).trans
        (statements_next (statement_declare
          (expr_binary (expr_size visible (expr_name rfl) rfl) (expr_number _) rfl) rfl))
    _ = statements t (trim.body.drop 4) (more + text.length + 18)
        (c.holding (ends text a (before text.length) false)) :=
      (statements_next (statement_declare (expr_bool true) rfl)).trans (statements_next cleared)
    _ = statements t (trim.body.drop 6) (more + text.length + 16)
        (c.holding (ends text a b false)) :=
      (statements_next again).trans (statements_next cut)
    _ = statements t (trim.body.drop 8) (more + text.length + 14) (c.holding bindings) :=
      (statements_next (statement_declare (expr_string "") rfl)).trans
        (statements_next (copied _ (by omega)))
    _ = _ := statements_returned returned

variable {s : State} {name : String} {p : Position}

theorem apply_trim (bundled : Bundled t "trim" name) (trims : Trims text.toList front middle back)
    (small : text.length < 2 ^ 53)
    (unshadowed : ∀ word ∈ ["size", "toNumber"], s.scopes.target word = word) {steps : Nat}
    (enough : text.length + 24 ≤ steps) :
    apply t p name [.string text] steps s = .done (.string (String.ofList middle)) s := by
  have called : t.find? name = some trim := bundled.find? (by simp [functions])
  obtain ⟨more, rfl⟩ : ∃ more, steps = more + 2 := ⟨steps - 2, by omega⟩
  let c : State := { s with calls := s.calls.push ⟨name, p⟩ }
  obtain ⟨bindings, body⟩ := statements_trim (t := t) (c := c) trims small
    (unshadowed "size" (by simp)) (unshadowed "toNumber" (by simp))
    (by omega : text.length + 22 ≤ more)
  exact apply_user bundled.plain called rfl rfl body

/-- **`trim` takes the blanks off both ends, and nothing else.**  Called on a text it ends with the
characters of it that are left when all blanks are taken off in front, and then all at the back:
none, if there are only blanks.  Called on the result it gives the same again.  In the run of it
every index that is read is there; that of a text is a whole number less than its length. -/
theorem trim_removes_outer_blanks (bundled : Bundled t "trim" name)
    (unshadowed : ∀ word ∈ ["size", "toNumber"], s.scopes.target word = word)
    (small : text.length < 2 ^ 53) (p : Position) :
    (∃ front back, Trims text.toList front (trimmed text.toList) back) ∧
      callFunction t name [.string text] p s =
        .done (.string (String.ofList (trimmed text.toList))) s ∧
      callFunction t name [.string (String.ofList (trimmed text.toList))] p s =
        .done (.string (String.ofList (trimmed text.toList))) s ∧
      ∀ {steps q e e' s'}, Task.Reaches t ⟨limit, .apply p name [.string text], s⟩
          ⟨steps, .expr (.index q e e'), s'⟩ →
        ∃ v w s₁ s₂ r, expr t e (steps - 1) s' = .done v s₁ ∧
          expr t e' (steps - 1) s₁ = .done w s₂ ∧ s₂.store.indexGet v w = .ok r ∧
          ∀ text', v = .string text' → ∃ x, ∃ i : ℕ, w = .number x ∧
            Number.value? x = some (i : ℚ) ∧ i < text'.length := by
  have enough : text.length + 24 ≤ limit := by
    rw [limit]
    omega
  have trims := trims_trimmed text.toList
  have ended : callFunction t name [.string text] p s = .done _ s :=
    apply_trim bundled trims small unshadowed enough
  refine ⟨⟨_, _, trims⟩, ended, ?_, fun reached => ?_⟩
  · have length := trims.length
    have again : (String.ofList (trimmed text.toList)).length = (trimmed text.toList).length := by
      rw [← String.length_toList, String.toList_ofList]
    exact apply_trim bundled (by rw [String.toList_ofList]; exact trims.again) (by omega) unshadowed
      (by omega)
  · obtain ⟨v, w, s₁, s₂, r, first, second, read⟩ := reached.reads (congrArg Outcome.verdict? ended)
    refine ⟨v, w, s₁, s₂, r, first, second, read, ?_⟩
    rintro text' rfl
    obtain ⟨x, i, inside, number, whole, -⟩ := Store.indexGet_string_eq_ok_iff.1 read
    exact ⟨x, i, number, whole, by rwa [String.length_toList] at inside⟩

/-- A blank inside stays, and of blanks alone nothing is left. -/
theorem trim_of_two_letters :
    let s : State := .start (.lines [])
    (∀ word ∈ ["size", "toNumber"], s.scopes.target word = word) ∧
      callFunction table "trim" [.string " a b\n"] .start s = .done (.string "a b") s ∧
      callFunction table "trim" [.string "\t "] .start s = .done (.string "") s := by
  intro s
  have visible : ∀ word ∈ ["size", "toNumber"], s.scopes.target word = word := fun _ _ => rfl
  have bundled := bundled_table trim (by simp [functions])
  have letters : trimmed " a b\n".toList = "a b".toList := by decide
  have blanks : trimmed "\t ".toList = "".toList := by decide
  have first := (trim_removes_outer_blanks (t := table) (s := s) bundled visible
    (by decide : " a b\n".length < 2 ^ 53) .start).2.1
  have second := (trim_removes_outer_blanks (t := table) (s := s) bundled visible
    (by decide : "\t ".length < 2 ^ 53) .start).2.1
  rw [letters, String.ofList_toList] at first
  rw [blanks, String.ofList_toList] at second
  exact ⟨visible, first, second⟩

end Library

end Script
