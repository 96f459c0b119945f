/-
# Script.Proofs.Syntax.Concatenation -- one source text behind another

Two source texts that parse, on lines of their own, are read one after the other.  The
items of the second come behind the program the first declares; each is entered if it
clashes with nothing before it (`Program.enter`), and the first that does not is reported.
Since the second text parses by itself, such a clash is one with the first text
(`enter_clash`).  The main statement is `ofText_concat`.
-/
import Mathlib
import Script.Proofs.Relocate.Parser
import Script.Proofs.Syntax.Continuation
import Script.Proofs.Syntax.Soundness.Program

namespace Script

set_option autoImplicit false

open Grammar Reader

namespace FunctionTable

/-- The functions of one table and then those of another. -/
def union (t u : FunctionTable) : FunctionTable :=
  ⟨t.entries ++ u.entries⟩

theorem find?_union (t u : FunctionTable) (name : String) :
    (t.union u).find? name = (t.find? name).or (u.find? name) :=
  List.lookup_append

theorem contains_union (t u : FunctionTable) (name : String) :
    (t.union u).contains name = (t.contains name || u.contains name) := by
  simp [contains, find?_union]

end FunctionTable

namespace Item

/-- The place of the name an item declares or asks for. -/
def position : Item → Position
  | borrowing decl => decl.position
  | function f => f.position

/-- What is wrong with an item behind a program, if anything is. -/
def clash? (p : Program) : Item → Option Fault
  | borrowing decl =>
      if p.imports.any decl.agrees then some (.duplicateImport decl.module decl.name) else none
  | function f =>
      if p.functions.contains f.name then some (.duplicateFunction f.name) else none

end Item

/-- A reader that fails for a clash and goes on otherwise. -/
theorem Reader.bind_of_clash {α β : Type} {x : Reader α} {f : α → Reader β} {a : α}
    {tape left : Tape} {taken : Bool} {fault : Fault} {position : Position}
    (ran : x tape = if taken then .error (.failed (.ofFault fault position)) else .ok (a, left)) :
    (x >>= f) tape =
      match if taken then some fault else none with
      | some fault => .error (.failed (.ofFault fault position))
      | none => f a left := by
  cases taken with
  | true =>
      change (x tape >>= fun p => f p.1 p.2) = _
      rw [ran]
      rfl
  | false => exact bind_of_ok ran

namespace Program

/-- The program with items behind it, one by one, up to the first that clashes. -/
def enter (p : Program) : List Item → Except Stop Program
  | [] => .ok p
  | item :: items =>
      match item.clash? p with
      | some fault => .error (.failed (.ofFault fault item.position))
      | none => (p.extend [item]).enter items

theorem extend_append (p : Program) (items later : List Item) :
    (p.extend items).extend later = p.extend (items ++ later) := by
  simp [extend, ofItems]

theorem borrow_eq_extend (p : Program) (decl : Import) :
    { p with imports := p.imports ++ [decl] } = p.extend [.borrowing decl] := by
  rw [← extend_borrowing, extend_nil]

theorem declare_eq_extend (p : Program) (f : Function) :
    { p with functions := p.functions.add f.name f } = p.extend [.function f] := by
  rw [← extend_function, extend_nil]

/-- Among distinct items none clashes with those before it. -/
theorem Distinct.clash?_eq_none {p : Program} {item : Item} {items : List Item}
    (distinct : (p.extend (item :: items)).Distinct) : item.clash? p = none := by
  cases item with
  | borrowing decl => simp [Item.clash?, distinct.new_import]
  | function f => simp [Item.clash?, distinct.new_function]

/-- What clashes with a program clashes with any larger one. -/
theorem clash?_extend {p : Program} {item : Item} {fault : Fault} (items : List Item)
    (clashes : item.clash? p = some fault) : item.clash? (p.extend items) = some fault := by
  cases item with
  | borrowing decl =>
      simp only [Item.clash?, Option.ite_none_right_eq_some, extend, List.any_append] at clashes ⊢
      exact ⟨by simp [clashes.1], clashes.2⟩
  | function f =>
      have larger := FunctionTable.contains_union p.functions (ofItems items).functions f.name
      simp only [Item.clash?, Option.ite_none_right_eq_some] at clashes ⊢
      rw [show (p.extend items).functions = p.functions.union (ofItems items).functions from rfl,
        larger]
      exact ⟨by simp [clashes.1], clashes.2⟩

theorem mem_functions {items : List Item} {name : String} {f : Function} :
    (name, f) ∈ (ofItems items).functions.entries ↔ .function f ∈ items ∧ f.name = name := by
  simp only [ofItems, List.mem_map, List.mem_filterMap, Prod.mk.injEq]
  constructor
  · rintro ⟨g, ⟨item, member, found⟩, rfl, rfl⟩
    cases item with
    | borrowing decl => cases found
    | function f =>
        cases found
        exact ⟨member, rfl⟩
  · rintro ⟨member, rfl⟩
    exact ⟨f, ⟨.function f, member, rfl⟩, rfl, rfl⟩

theorem mem_imports {items : List Item} {decl : Import} :
    decl ∈ (ofItems items).imports ↔ .borrowing decl ∈ items := by
  simp only [ofItems, List.mem_filterMap]
  constructor
  · rintro ⟨item, member, found⟩
    cases item with
    | borrowing decl =>
        cases found
        exact member
    | function f => cases found
  · exact fun member => ⟨.borrowing decl, member, rfl⟩

/-- Items of their own, none of which clashes with a program, are distinct behind it. -/
theorem Distinct.extend {p : Program} {items : List Item} (distinct : p.Distinct)
    (own : (ofItems items).Distinct) (apart : ∀ item ∈ items, item.clash? p = none) :
    (p.extend items).Distinct := by
  constructor
  · simp only [Program.extend, List.map_append]
    refine List.nodup_append.2 ⟨distinct.functions, own.functions, ?_⟩
    rintro name taken _ further rfl
    obtain ⟨⟨_, f⟩, member, rfl⟩ := List.mem_map.1 further
    obtain ⟨member, same⟩ := mem_functions.1 member
    have new : p.functions.contains f.name = false := by
      simpa [Item.clash?] using apart _ member
    exact FunctionTable.contains_eq_false.1 new (same ▸ taken)
  · refine List.pairwise_append.2 ⟨distinct.imports, own.imports, ?_⟩
    intro earlier taken decl further
    have new : p.imports.any decl.agrees = false := by
      simpa [Item.clash?] using apart _ (mem_imports.1 further)
    simpa using List.any_eq_false.1 new earlier taken

theorem Distinct.of_extend {p : Program} {items : List Item}
    (distinct : (p.extend items).Distinct) : p.Distinct := by
  have names := distinct.functions
  simp only [Program.extend, List.map_append] at names
  exact ⟨(List.nodup_append.1 names).1, (List.pairwise_append.1 distinct.imports).1⟩

theorem enter_distinct {p : Program} {items : List Item} (later : List Item)
    (distinct : (p.extend items).Distinct) :
    p.enter (items ++ later) = (p.extend items).enter later := by
  induction items generalizing p with
  | nil => rw [extend_nil, List.nil_append]
  | cons item items ih =>
      have split : (p.extend [item]).extend items = p.extend (item :: items) :=
        p.extend_append [item] items
      rw [List.cons_append, enter, distinct.clash?_eq_none]
      rw [← split] at distinct ⊢
      exact ih distinct

/-- Items that are distinct behind a program are all entered. -/
theorem enter_all {p : Program} {items : List Item} (distinct : (p.extend items).Distinct) :
    p.enter items = .ok (p.extend items) := by
  simpa [enter] using enter_distinct [] distinct

/-- The first item that clashes with a program is the one that is reported. -/
theorem enter_first {p : Program} {before later : List Item} {item : Item} {fault : Fault}
    (distinct : p.Distinct) (own : (ofItems (before ++ item :: later)).Distinct)
    (apart : ∀ other ∈ before, other.clash? p = none) (clashes : item.clash? p = some fault) :
    p.enter (before ++ item :: later) = .error (.failed (.ofFault fault item.position)) := by
  have alone : (ofItems before).Distinct := by
    rw [← extend_empty, ← extend_append] at own
    rw [← extend_empty]
    exact own.of_extend
  rw [enter_distinct _ (distinct.extend alone apart), enter, clash?_extend before clashes]

end Program

namespace Parser

variable {steps : Nat} {tape left rest : Tape}

/-- An import that was read is read again behind any program, or clashes with it. -/
theorem program_borrowing {seen : List Import} {decl : Import} (settled : rest.Settled)
    (unnamed : rest.current.kind ≠ .keyword .as) (begins : tape.current.kind = .keyword .import)
    (ran : importDecl seen tape = .ok (decl, left)) (other : Program) (more : Nat) :
    program other (more + 1) (tape.followedBy rest) =
      match (Item.borrowing decl).clash? other with
      | some fault => .error (.failed (.ofFault fault decl.position))
      | none => program (other.extend [.borrowing decl]) more (left.followedBy rest) := by
  have goesOn : tape.GoesOn := Tape.goesOn_of_kind (by simp [begins])
  have again := importDecl_followed settled unnamed ran other.imports
  simp only [program, kind_bind, Tape.current_followedBy goesOn, begins, Item.clash?]
  rw [← Program.borrow_eq_extend]
  exact bind_of_clash again

/-- A function that was read is read again behind any program, or clashes with it. -/
theorem program_function {seen : FunctionTable} {f : Function} {steps more : Nat}
    (settled : rest.Settled) (enough : steps ≤ more)
    (begins : tape.current.kind = .keyword .function)
    (ran : function seen steps tape = .ok (f, left)) (other : Program) :
    program other (more + 1) (tape.followedBy rest) =
      match (Item.function f).clash? other with
      | some fault => .error (.failed (.ofFault fault f.position))
      | none => program (other.extend [.function f]) more (left.followedBy rest) := by
  have goesOn : tape.GoesOn := Tape.goesOn_of_kind (by simp [begins])
  have again := function_followed settled enough ran other.functions
  simp only [program, kind_bind, Tape.current_followedBy goesOn, begins, Item.clash?]
  rw [← Program.declare_eq_extend]
  exact bind_of_clash again

/-- Behind an item that is read again so are the items after it. -/
theorem program_item {item : Item} {items : List Item}
    (one : ∀ (other : Program) (more : Nat), steps ≤ more →
      program other (more + 1) tape =
        match item.clash? other with
        | some fault => .error (.failed (.ofFault fault item.position))
        | none => program (other.extend [item]) more left)
    (again : ∀ (other : Program) (more : Nat), steps ≤ more →
      program other more left =
        other.enter items >>= fun q => program q (more - items.length) rest)
    (other : Program) (more : Nat) (enough : steps + 1 ≤ more) :
    program other more tape =
      other.enter (item :: items) >>= fun q =>
        program q (more - (item :: items).length) rest := by
  obtain ⟨more, rfl⟩ := Nat.exists_eq_add_of_le' (Nat.one_le_of_lt enough)
  have fewer := Nat.le_of_succ_le_succ enough
  rw [one other more fewer, Program.enter]
  cases item.clash? other with
  | some fault => rfl
  | none => exact (again _ more fewer).trans (by simp)

/-- A program that is read is the items read for it, and these are read again before any tape that
does not name an import anew and behind any program, as far as they do not clash with it. -/
theorem program_followed {seen p : Program} (here : tape.Settled) (genuine : tape.Genuine)
    (ran : program seen steps tape = .ok (p, left)) :
    ∃ tokens items position, tape = Tape.prepend tokens (.endOfInput position) ∧
      Items tokens items ∧ p = seen.extend items ∧
      ∀ rest : Tape, rest.Settled → rest.current.kind ≠ .keyword .as →
        ∀ (other : Program) (more : Nat), steps ≤ more →
          program other more (tape.followedBy rest) =
            other.enter items >>= fun q => program q (more - items.length) rest := by
  -- what is left of the tape stays settled, so that where it shows the end it has come to it
  induction steps generalizing seen tape with
  | zero => cases ran
  | succ steps ih =>
      simp only [program, kind_bind] at ran
      obtain ⟨choice, shape, ran⟩ := chosen ran
      split at shape <;> subst shape
      case h_1 ended =>
        obtain ⟨rfl, rfl⟩ := pure_ok ran
        obtain ⟨position, rfl⟩ := Tape.eq_endOfInput here genuine ended
        exact ⟨[], [], position, rfl, .nil, seen.extend_nil.symm, fun _ _ _ _ _ _ => rfl⟩
      case h_2 begins =>
        obtain ⟨decl, mid, first, ran⟩ := bind_ok ran
        obtain ⟨⟨tokens, reads, borrowing⟩, -⟩ := importDecl_ok first
        obtain ⟨later, items, position, whole, derived, rfl, again⟩ :=
          ih (reads.settled here) (reads.whole ▸ genuine).of_prepend ran
        refine ⟨tokens ++ later, .borrowing decl :: items, position, ?_,
          .borrowing borrowing derived, seen.extend_borrowing decl items, ?_⟩
        · rw [reads.whole, whole, Tape.prepend_append]
        · intro rest settled unnamed
          refine program_item (fun other more _ => ?_) (again rest settled unnamed)
          exact program_borrowing settled unnamed begins first other more
      case h_3 begins =>
        obtain ⟨f, mid, first, ran⟩ := bind_ok ran
        obtain ⟨⟨tokens, reads, function⟩, -⟩ := function_ok first
        obtain ⟨later, items, position, whole, derived, rfl, again⟩ :=
          ih (reads.settled here) (reads.whole ▸ genuine).of_prepend ran
        refine ⟨tokens ++ later, .function f :: items, position, ?_,
          .function function derived, seen.extend_function f items, ?_⟩
        · rw [reads.whole, whole, Tape.prepend_append]
        · intro rest settled unnamed
          refine program_item (fun other more enough => ?_) (again rest settled unnamed)
          exact program_function settled enough begins first other
      case h_4 => cases ran

/-- What is read as a program does not begin with a new name for an import. -/
theorem program_begins {seen p : Program} (ran : program seen steps tape = .ok (p, left)) :
    tape.current.kind ≠ .keyword .as := by
  intro named
  cases steps with
  | zero => cases ran
  | succ steps =>
      simp only [program, kind_bind, named] at ran
      cases ran

end Parser

namespace Grammar

theorem Borrowing.placed {tokens : List Token} {decl : Import} (borrowing : Borrowing tokens decl) :
    decl.position ∈ tokens.map Token.position := by
  cases borrowing <;> simp

theorem Function.placed {tokens : List Token} {f : Script.Function} (function : Function tokens f) :
    f.position ∈ tokens.map Token.position := by
  cases function
  simp

/-- Items stand at tokens of their own, in the order of the text. -/
theorem Items.placed {tokens : List Token} {items : List Item} (derived : Items tokens items) :
    (items.map Item.position).Sublist (tokens.map Token.position) := by
  induction derived with
  | nil => exact .slnil
  | borrowing borrowing _ ih =>
      rw [List.map_append]
      exact (List.singleton_sublist.2 borrowing.placed).append ih
  | function function _ ih =>
      rw [List.map_append]
      exact (List.singleton_sublist.2 function.placed).append ih

theorem Items.length_le {tokens : List Token} {items : List Item} (derived : Items tokens items) :
    items.length ≤ tokens.length := by
  simpa using derived.placed.length_le

end Grammar

namespace Program

/-- No function of the second program has the name of one of the first, and no import of it agrees
with one of the first. -/
structure Apart (p q : Program) : Prop where
  functions : ∀ name, p.functions.contains name = true → q.functions.contains name = false
  imports : ∀ decl ∈ q.imports, p.imports.any decl.agrees = false

/-- A function or an import of the second program that clashes with the first, and the fault it
is. -/
inductive Clash (p q : Program) : Position → Fault → Prop
  | function {name : String} {f : Function} (declared : (name, f) ∈ q.functions.entries)
      (taken : p.functions.contains name = true) : Clash p q f.position (.duplicateFunction name)
  | borrowing {decl : Import} (asked : decl ∈ q.imports)
      (taken : p.imports.any decl.agrees = true) :
      Clash p q decl.position (.duplicateImport decl.module decl.name)

theorem clash_ofItems {p : Program} {items : List Item} {position : Position} {fault : Fault} :
    p.Clash (ofItems items) position fault ↔
      ∃ item ∈ items, item.position = position ∧ item.clash? p = some fault := by
  constructor
  · rintro (⟨declared, taken⟩ | ⟨asked, taken⟩)
    · obtain ⟨member, rfl⟩ := mem_functions.1 declared
      exact ⟨_, member, rfl, by simp [Item.clash?, taken]⟩
    · exact ⟨_, mem_imports.1 asked, rfl, by simp [Item.clash?, taken]⟩
  · rintro ⟨item, member, rfl, clashes⟩
    cases item with
    | borrowing decl =>
        obtain ⟨taken, same⟩ := Option.ite_none_right_eq_some.1 clashes
        cases same
        exact .borrowing (mem_imports.2 member) taken
    | function f =>
        obtain ⟨taken, same⟩ := Option.ite_none_right_eq_some.1 clashes
        cases same
        exact .function (mem_functions.2 ⟨member, rfl⟩) taken

theorem apart_iff {p q : Program} : p.Apart q ↔ ∀ position fault, ¬ p.Clash q position fault := by
  constructor
  · rintro apart position fault (⟨declared, taken⟩ | ⟨asked, taken⟩)
    · have absent := FunctionTable.contains_eq_false.1 (apart.functions _ taken)
      exact absent (List.mem_map_of_mem declared)
    · simp [apart.imports _ asked] at taken
  · intro free
    refine ⟨fun name taken => ?_, fun decl asked => ?_⟩
    · refine FunctionTable.contains_eq_false.2 fun member => ?_
      obtain ⟨⟨_, f⟩, declared, rfl⟩ := List.mem_map.1 member
      exact free _ _ (.function declared taken)
    · exact Bool.eq_false_iff.2 fun taken => free _ _ (.borrowing asked taken)

/-- Moved to other places, the same functions and imports clash. -/
theorem clash_relocate {move : Position → Position} {p q : Program} {place : Position}
    {fault : Fault} :
    p.Clash (q.relocate move) place fault ↔
      ∃ position, p.Clash q position fault ∧ move position = place := by
  constructor
  · rintro (⟨declared, taken⟩ | ⟨asked, taken⟩)
    · obtain ⟨⟨_, f⟩, member, same⟩ := List.mem_map.1 declared
      cases same
      exact ⟨f.position, .function member taken, rfl⟩
    · obtain ⟨decl, member, rfl⟩ := List.mem_map.1 asked
      exact ⟨decl.position, .borrowing member taken, rfl⟩
  · rintro ⟨position, @⟨name, f, declared, taken⟩ | @⟨decl, asked, taken⟩, rfl⟩
    · have moved : (name, f.relocate move) ∈ (q.relocate move).functions.entries :=
        List.mem_map.2 ⟨(name, f), declared, rfl⟩
      exact .function moved taken
    · have moved : decl.relocate move ∈ (q.relocate move).imports := List.mem_map_of_mem asked
      exact .borrowing moved taken

section

variable {p : Program} {items : List Item}

theorem enter_apart (distinct : p.Distinct) (own : (ofItems items).Distinct)
    (free : ∀ position fault, ¬ p.Clash (ofItems items) position fault) :
    p.enter items = .ok (p.extend items) := by
  refine enter_all (distinct.extend own fun item member => ?_)
  refine Option.eq_none_iff_forall_ne_some.2 fun fault clashes => ?_
  exact free _ _ (clash_ofItems.2 ⟨item, member, rfl, clashes⟩)

/-- Items that clash with a program are not all entered: the first of them in the text is
reported. -/
theorem enter_clash (distinct : p.Distinct) (own : (ofItems items).Distinct)
    (ordered : items.Pairwise fun a b => a.position.Before b.position)
    (clash : ∃ position fault, p.Clash (ofItems items) position fault) :
    ∃ position fault, p.Clash (ofItems items) position fault ∧
      (∀ other cause, p.Clash (ofItems items) other cause → ¬ other.Before position) ∧
      p.enter items = .error (.failed (.ofFault fault position)) := by
  obtain ⟨_, _, clash⟩ := clash
  obtain ⟨some, member, -, clashes⟩ := clash_ofItems.1 clash
  have found : (items.find? fun item => (item.clash? p).isSome).isSome :=
    List.find?_isSome.2 ⟨some, member, by simp [clashes]⟩
  obtain ⟨item, found⟩ := Option.isSome_iff_exists.1 found
  obtain ⟨clashes, before, later, rfl, apart⟩ := List.find?_eq_some_iff_append.1 found
  obtain ⟨fault, clashes⟩ := Option.isSome_iff_exists.1 clashes
  have apart : ∀ other ∈ before, other.clash? p = none := by simpa using apart
  refine ⟨item.position, fault, clash_ofItems.2 ⟨item, by simp, rfl, clashes⟩, ?_,
    enter_first distinct own apart clashes⟩
  intro _ cause clash earlier
  obtain ⟨other, member, rfl, clashes⟩ := clash_ofItems.1 clash
  rcases List.mem_append.1 member with member | member
  · rw [apart other member] at clashes
    cases clashes
  · rcases List.mem_cons.1 member with rfl | member
    · exact earlier.irrefl
    · have order := (List.pairwise_cons.1 (List.pairwise_append.1 ordered).2.1).1 other member
      exact (order.trans earlier).irrefl

end

/-- A program is read from a tape without a fault in front, with a step at least. -/
theorem ofTape_ok {tape : Tape} {p : Program} (parsed : ofTape tape = .ok p) :
    tape.Settled ∧
      ∃ left, Parser.program .empty (8 * tape.length + 8) tape = .ok (p, left) := by
  unfold ofTape at parsed
  cases settling : tape.settle with
  | error stop => rw [settling] at parsed; cases parsed
  | ok settled =>
      obtain ⟨rfl, whole⟩ := Tape.settle_ok settling
      rw [settling] at parsed
      change (Parser.program .empty _ _ >>= _) = _ at parsed
      cases ran : Parser.program .empty (8 * settled.length + 8) settled with
      | error stop => rw [ran] at parsed; cases parsed
      | ok result =>
          rw [ran] at parsed
          cases parsed
          exact ⟨whole, result.2, rfl⟩

/-- A tape that is read as a program holds its items to the end, and they are read again before any
tape and behind any program. -/
theorem ofTape_followed {tape : Tape} {p : Program} (genuine : tape.Genuine)
    (parsed : ofTape tape = .ok p) :
    ∃ tokens items position, tape = Tape.prepend tokens (.endOfInput position) ∧
      Items tokens items ∧ p = ofItems items ∧ p.Distinct ∧
      ∀ rest : Tape, rest.Settled → rest.current.kind ≠ .keyword .as →
        ∀ (other : Program) (more : Nat), 8 * tape.length + 8 ≤ more →
          Parser.program other more (tape.followedBy rest) =
            other.enter items >>= fun q => Parser.program q (more - items.length) rest := by
  obtain ⟨settled, left, ran⟩ := ofTape_ok parsed
  obtain ⟨-, -, -, -, -, distinct, -⟩ := Parser.program_ok distinct_empty ran
  obtain ⟨tokens, items, position, whole, derived, rfl, again⟩ :=
    Parser.program_followed settled genuine ran
  exact ⟨tokens, items, position, whole, derived, extend_empty items, distinct, again⟩

/-- A program on one tape and another behind it: the items of the second come behind the first. -/
theorem ofTape_followedBy {tape rest : Tape} {p q : Program} (genuine : tape.Genuine)
    (genuine' : rest.Genuine) (here : ofTape tape = .ok p) (behind : ofTape rest = .ok q) :
    ∃ items, Items rest.tokens.1 items ∧ q = ofItems items ∧ p.Distinct ∧ q.Distinct ∧
      ofTape (tape.followedBy rest) = p.enter items := by
  obtain ⟨first, items, ending, whole, derived, rfl, distinct, again⟩ :=
    ofTape_followed genuine here
  obtain ⟨second, later, last, whole', derived', rfl, distinct', again'⟩ :=
    ofTape_followed genuine' behind
  obtain ⟨settled, -, -⟩ := ofTape_ok here
  obtain ⟨settled', _, ran⟩ := ofTape_ok behind
  have taken : Items rest.tokens.1 later := by
    simpa [whole', Tape.tokens_prepend, Tape.tokens] using derived'
  refine ⟨later, taken, rfl, distinct, distinct', ?_⟩
  have joined : (tape.followedBy rest).length = tape.length + rest.length := by
    simp [whole, Tape.followedBy_prepend, Tape.length_prepend, Tape.followedBy, Tape.length]
  have few : items.length ≤ tape.length := by
    simpa [whole, Tape.length_prepend, Tape.length] using derived.length_le
  have few' : later.length ≤ rest.length := by
    simpa [whole', Tape.length_prepend, Tape.length] using derived'.length_le
  have all : empty.enter items = .ok (ofItems items) := by
    rw [← extend_empty] at distinct ⊢
    exact enter_all distinct
  have closed : rest.followedBy (.endOfInput last) = rest := by
    rw [whole', Tape.followedBy_prepend, Tape.followedBy]
  -- an item takes a step and a token at least, so eight steps a token are left for the second tape
  have first := again rest settled' (Parser.program_begins ran) .empty
    (8 * (tape.followedBy rest).length + 8) (by omega)
  have second := again' (.endOfInput last) rfl (by simp [Tape.current, Token.endOfInput])
    (ofItems items) (8 * (tape.followedBy rest).length + 8 - items.length) (by omega)
  rw [all] at first
  rw [closed] at second
  obtain ⟨steps, left⟩ : ∃ steps, 8 * (tape.followedBy rest).length + 8 - items.length -
      later.length = steps + 1 := Nat.exists_eq_add_of_le' (by omega)
  rw [left] at second
  have whole : (tape.followedBy rest).settle = .ok (tape.followedBy rest) :=
    Tape.settled_followedBy settled settled'
  rw [ofTape, whole]
  change (Parser.program .empty _ _ >>= _) = _
  rw [first.trans second]
  cases (ofItems items).enter later <;> rfl

/-- Of two source texts on lines of their own the items of the second, further down, come behind
the first. -/
theorem ofText_joined {first second : String} {p q : Program} (here : ofText first = .ok p)
    (behind : ofText second = .ok q) :
    ∃ items, q.relocate (.down (1 + first.toList.count '\n')) = ofItems items ∧
      items.Pairwise (fun a b => a.position.Before b.position) ∧
      p.Distinct ∧ (ofItems items).Distinct ∧ ofText (first ++ "\n" ++ second) = p.enter items := by
  obtain ⟨_, _, _, tokenized, -⟩ := parsed_is_derived here
  obtain ⟨_, ending, whole, -⟩ := Tape.tokenize_eq_ok_iff.1 tokenized
  have joined := Tape.ofText_joined second (congrArg Prod.snd whole)
  -- the second text as it stands in the whole
  have below : (Tape.ofText second).relocate (.down (1 + first.toList.count '\n')) =
      Tape.ofChars (.down (1 + first.toList.count '\n') .start) second.toList :=
    (Tape.ofChars_down _ _ _).symm
  have moved : ofTape ((Tape.ofText second).relocate (.down (1 + first.toList.count '\n'))) =
      .ok (q.relocate (.down (1 + first.toList.count '\n'))) := by
    rw [ofTape_relocate, show ofTape (Tape.ofText second) = .ok q from behind]
    rfl
  rw [below] at joined moved
  obtain ⟨items, derived, shape, distinct, own, entered⟩ :=
    ofTape_followedBy (Tape.genuine_ofText first) (Tape.genuine_ofChars _ _) here moved
  have order := (Tape.ofChars_ordered (.down (1 + first.toList.count '\n') .start)
    second.toList).1
  rw [← List.pairwise_map] at order
  have ordered := List.pairwise_map.1 (order.sublist derived.placed)
  rw [shape] at own
  refine ⟨items, shape, ordered, distinct, own, ?_⟩
  rw [← entered, ← joined]
  rfl

/-- **Parsing respects concatenation.**  Two source texts that parse are put on lines of their own.
If no function of the second has the name of one of the first and no import of it agrees with one
of the first, the whole is the functions and imports of both, those of the second further down by
the lines in front of them.  Otherwise the whole fails at the first function or import of the
second that clashes with the first, at its place further down. -/
theorem ofText_concat {first second : String} {p q : Program} (here : ofText first = .ok p)
    (behind : ofText second = .ok q) :
    let move := Position.down (1 + first.toList.count '\n')
    let read := ofText (first ++ "\n" ++ second)
    (p.Apart q → read = .ok
      ⟨p.functions.union (q.relocate move).functions, p.imports ++ (q.relocate move).imports⟩) ∧
    (¬ p.Apart q → ∃ position fault, p.Clash q position fault ∧
      (∀ other cause, p.Clash q other cause → ¬ other.Before position) ∧
      read = .error (.failed (.ofFault fault (move position)))) := by
  intro move read
  obtain ⟨items, shape, ordered, distinct, own, joined⟩ := ofText_joined here behind
  have moved {place : Position} {fault : Fault} : p.Clash (ofItems items) place fault ↔
      ∃ position, p.Clash q position fault ∧ move position = place := by
    rw [← shape]
    exact clash_relocate
  constructor
  · intro apart
    have free : ∀ place fault, ¬ p.Clash (ofItems items) place fault := by
      intro place fault clash
      obtain ⟨position, clash, -⟩ := moved.1 clash
      exact apart_iff.1 apart position fault clash
    have all : read = .ok (p.extend items) := joined.trans (enter_apart distinct own free)
    rw [all, show q.relocate move = ofItems items from shape]
    rfl
  · intro together
    have some : ∃ position fault, p.Clash (ofItems items) position fault := by
      obtain ⟨position, fault, clash⟩ : ∃ position fault, p.Clash q position fault := by
        simpa [apart_iff] using together
      exact ⟨_, fault, moved.2 ⟨position, clash, rfl⟩⟩
    obtain ⟨place, fault, below, least, failed⟩ := enter_clash distinct own ordered some
    obtain ⟨position, clash, rfl⟩ := moved.1 below
    refine ⟨position, fault, clash, fun other cause clash earlier => ?_, joined.trans failed⟩
    exact least _ cause (moved.2 ⟨other, clash, rfl⟩) ((Position.before_down _ _ _).2 earlier)

/-- Behind an import and a comment: a text that asks for another name of the same function, and one
that also has a function of a name there is before it repeats the import. -/
theorem ofText_concat_behind_comment :
    let first := "fun f() \x7b \x7d\nimport m.g // last"
    let second := "import m.g as h fun e() \x7b return f \x7d"
    let third := "import m.g as h\nfun f() \x7b \x7d import m.g"
    let p := ofItems [.function ⟨"f", [], [], ⟨1, 5⟩⟩, .borrowing ⟨"m", "g", "g", ⟨2, 10⟩⟩]
    let q := ofItems [.borrowing ⟨"m", "g", "h", ⟨1, 10⟩⟩,
      .function ⟨"e", [], [.return ⟨1, 27⟩ (some (.name ⟨1, 34⟩ "f"))], ⟨1, 21⟩⟩]
    let r := ofItems [.borrowing ⟨"m", "g", "h", ⟨1, 10⟩⟩, .function ⟨"f", [], [], ⟨2, 5⟩⟩,
      .borrowing ⟨"m", "g", "g", ⟨2, 22⟩⟩]
    ofText first = .ok p ∧ ofText second = .ok q ∧ ofText third = .ok r ∧
      p.Apart q ∧ ofText (first ++ "\n" ++ second) = .ok
        (ofItems [.function ⟨"f", [], [], ⟨1, 5⟩⟩, .borrowing ⟨"m", "g", "g", ⟨2, 10⟩⟩,
          .borrowing ⟨"m", "g", "h", ⟨3, 10⟩⟩,
          .function ⟨"e", [], [.return ⟨3, 27⟩ (some (.name ⟨3, 34⟩ "f"))], ⟨3, 21⟩⟩]) ∧
      ¬ p.Apart r ∧ ∃ position fault, p.Clash r position fault ∧
        (∀ other cause, p.Clash r other cause → ¬ other.Before position) ∧
        ofText (first ++ "\n" ++ third) = .error (.failed (.ofFault fault (position.down 2))) := by
  intro first second third p q r
  have lines : 1 + first.toList.count '\n' = 2 := by decide
  have here : ofText first = .ok p := by cbv
  have behind : ofText second = .ok q := by cbv
  have behind' : ofText third = .ok r := by cbv
  have apart : p.Apart q := by
    refine ⟨fun name taken => ?_, by decide⟩
    obtain rfl : name = "f" := by
      by_contra other
      have absent : p.functions.contains name = false :=
        FunctionTable.contains_eq_false.2 (mt List.mem_singleton.1 other)
      exact absurd taken (by simp [absent])
    decide
  have together : ¬ p.Apart r := fun apart =>
    absurd (apart.functions "f" (by decide)) (by decide)
  have joined := (ofText_concat here behind).1 apart
  have failed := (ofText_concat here behind').2 together
  rw [lines] at joined failed
  exact ⟨here, behind, behind', apart, joined, together, failed⟩

end Program

end Script
