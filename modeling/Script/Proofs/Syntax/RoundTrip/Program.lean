/-
# Script.Proofs.Syntax.RoundTrip.Program -- a program written is the program read

Imports and functions begin with a word that nothing before them can take for its own, so
a program is read back item by item in front of the end of the text.  The text of a
program has its tokens in it, at places that the blanks between them decide; reading does
not look at places (`Program.ofTape_relocate`), so with all places forgotten the text is
as good as the tokens.
-/
import Mathlib
import Script.Proofs.Relocate.Parser
import Script.Proofs.Syntax.Items
import Script.Proofs.Syntax.RoundTrip.Statements
import Script.Proofs.Syntax.Writable

namespace Script

set_option autoImplicit false

open Token Tape Reader

namespace Item

/-- In all blocks of a function a `return` without a value comes last. -/
def Orderly : Item → Prop
  | .borrowing _ => True
  | .function f => Stmt.ReturnsLast f.body ∧ ∀ s ∈ f.statements, s.Orderly

end Item

namespace Parser

variable {steps : Nat} {rest : Tape}

theorem reads_moreNames (names : List String) {closing : Token} (rest : Tape)
    (kind : closing.kind = .sign .closeParen)
    (enough : 8 * (moreNameTokens names).length + 1 ≤ steps) :
    moreNames steps (prepend (moreNameTokens names) (.next closing rest)) =
      .ok (names, .next closing rest) := by
  induction names generalizing steps with
  | nil =>
      obtain ⟨steps, rfl⟩ := Nat.exists_eq_add_of_le' enough
      have ends : (Tape.next closing rest).current.kind ≠ .sign .comma := by simp [kind]
      simp only [moreNameTokens, prepend_nil, moreNames]
      rw [bind_of_ok (accept_other ends)]
      rfl
  | cons name names ih =>
      simp only [moreNameTokens, List.length_cons] at enough
      obtain ⟨steps, rfl⟩ := Nat.exists_eq_add_of_le' (by omega : 1 ≤ steps)
      have others := ih (by omega : _ ≤ steps)
      have comma : (mark .comma).kind = .sign .comma := rfl
      simp only [moreNameTokens, prepend_cons, moreNames]
      rw [bind_of_ok (accept_next comma (settled_next _ _)), if_pos rfl,
        bind_of_ok (expectName_next rfl (settled_before _ closing rest)), bind_of_ok others]
      rfl

theorem reads_params (names : List String) (settled : rest.Settled)
    (enough : 8 * (grouped (nameTokens names)).length ≤ steps) :
    params steps (prepend (grouped (nameTokens names)) rest) = .ok (names, rest) := by
  have closes : (mark .closeParen).kind = .sign .closeParen := rfl
  simp only [grouped, List.cons_append, prepend_cons, prepend_append, prepend_nil, params]
  rw [bind_of_ok (expectSign_next rfl (settled_before _ _ rest))]
  cases names with
  | nil =>
      have found : (Tape.next (mark .closeParen) rest).current.kind = .sign .closeParen := rfl
      simp only [nameTokens, prepend_nil]
      rw [sees_yes found, if_pos rfl]
      refine (bind_of_ok (a := []) rfl).trans ?_
      exact bind_of_ok (expectSign_next closes settled)
  | cons name names =>
      simp only [grouped, nameTokens, List.length_append, List.length_cons] at enough
      have others := reads_moreNames names rest closes (by omega : _ ≤ steps)
      have open_ : (Tape.next (ofName name .start) (prepend (moreNameTokens names)
          (.next (mark .closeParen) rest))).current.kind ≠ .sign .closeParen := by simp [ofName]
      simp only [nameTokens, prepend_cons]
      rw [sees_no open_, if_neg Bool.false_ne_true]
      rw [bind_of_ok (expectName_next rfl (settled_before _ _ rest)), bind_of_ok others]
      refine (bind_of_ok (a := name :: names) rfl).trans ?_
      exact bind_of_ok (expectSign_next closes settled)

theorem reads_function {spell : Position → Float → String} {seen : FunctionTable} {f : Function}
    (new : seen.contains f.name = false) (orderly : (Item.function f).Orderly)
    (settled : rest.Settled) (enough : 8 * (f.tokens spell).length ≤ steps) :
    function seen steps (prepend (f.tokens spell) rest) = .ok (f, rest) := by
  obtain ⟨last, inside⟩ := orderly
  simp only [Function.tokens, List.length_append, List.length_cons] at enough
  have body := (readsStatements spell f.body last inside).block .start settled
    (by omega : _ ≤ steps)
  have later := settled_prepend settled (braced .start (Stmt.blockTokens spell f.body))
  have named := reads_params f.params later (by omega : _ ≤ steps)
  have free : ¬seen.contains (ofName f.name f.position).text = true := by
    simpa [ofName] using new
  simp only [Function.tokens, List.cons_append, prepend_cons, prepend_append, function]
  rw [bind_of_ok (expectWord_next rfl (settled_next _ _)),
    bind_of_ok (expectName_next rfl (settled_prepend later _)), if_neg free, bind_of_ok named,
    bind_of_ok body]
  rfl

/-- The name of an import is the one it is called by if no other one is given. -/
theorem importName_same {name : Token} (plain : rest.current.kind ≠ .keyword .as) :
    importName name rest = .ok (name.text, rest) := by
  rw [importName, bind_of_ok (accept_other plain)]
  rfl

theorem importName_other {name other word : Token} (renames : word.kind = .keyword .as)
    (kind : other.kind = .name) (differs : other.text ≠ name.text) (settled : rest.Settled) :
    importName name (.next word (.next other rest)) = .ok (other.text, rest) := by
  rw [importName, bind_of_ok (accept_next renames (settled_next _ _)), if_pos rfl,
    bind_of_ok (expectName_next kind settled), if_neg differs]
  rfl

theorem reads_import {seen : List Import} {decl : Import} (new : seen.any decl.agrees = false)
    (settled : rest.Settled) (plain : rest.current.kind ≠ .keyword .as) :
    importDecl seen (prepend decl.tokens rest) = .ok (decl, rest) := by
  obtain ⟨module, name, newName, position⟩ := decl
  have free : ¬seen.any (Import.agrees ⟨module, name, newName, position⟩) = true := by
    simp [new]
  have dotted (tape : Tape) : (Tape.next (mark .dot) tape).current.kind = .sign .dot := rfl
  simp only [Import.tokens, List.cons_append, List.nil_append, prepend_cons, importDecl]
  rw [bind_of_ok (expectWord_next rfl (settled_next _ _)),
    bind_of_ok (expectName_next rfl (settled_next _ _)), sees_yes (dotted _), if_pos rfl,
    bind_of_ok (take_next (settled_next _ _))]
  by_cases same : newName = name
  · subst same
    rw [if_pos rfl, prepend_nil, bind_of_ok (expectName_next rfl settled),
      bind_of_ok (importName_same plain)]
    exact congrFun (if_neg free) rest
  · rw [if_neg same, prepend_cons, prepend_cons, prepend_nil,
      bind_of_ok (expectName_next rfl (settled_next _ _)),
      bind_of_ok (importName_other rfl rfl same settled)]
    exact congrFun (if_neg free) rest

/-- Where an item ends the next one begins, or the text ends. -/
theorem items_begin (spell : Position → Float → String) (items : List Item) (p : Position) :
    (prepend (items.flatMap (Item.tokens spell)) (.endOfInput p)).Settled ∧
      (prepend (items.flatMap (Item.tokens spell)) (.endOfInput p)).current.kind ≠
        .keyword .as := by
  refine ⟨settled_prepend (settled_endOfInput p) _, ?_⟩
  cases items with
  | nil => simp [Tape.current, Token.endOfInput]
  | cons item items =>
      cases item with
      | borrowing decl => simp [Item.tokens, Import.tokens, ofWord]
      | function f => simp [Item.tokens, Function.tokens, ofWord]

/-- Items that are new and orderly are read back, behind the program there is. -/
theorem reads_program {spell : Position → Float → String} (p : Position) (items : List Item)
    {seen : Program} (distinct : (seen.extend items).Distinct)
    (orderly : ∀ item ∈ items, item.Orderly)
    (enough : 8 * (items.flatMap (Item.tokens spell)).length + 1 ≤ steps) :
    program seen steps (prepend (items.flatMap (Item.tokens spell)) (.endOfInput p)) =
      .ok (seen.extend items, .endOfInput p) := by
  induction items generalizing seen steps with
  | nil =>
      obtain ⟨steps, rfl⟩ := Nat.exists_eq_add_of_le' enough
      have ended : (Tape.endOfInput p).current.kind = .endOfInput := rfl
      rw [Program.extend_nil]
      simp only [List.flatMap_nil, prepend_nil, program, kind_bind, ended]
      rfl
  | cons item items ih =>
      obtain ⟨own, others⟩ := List.forall_mem_cons.1 orderly
      obtain ⟨settled, plain⟩ := items_begin spell items p
      rw [List.flatMap_cons, List.length_append] at enough
      rw [List.flatMap_cons, prepend_append]
      cases item with
      | borrowing decl =>
          have some : 4 ≤ (Item.tokens spell (.borrowing decl)).length := by
            simp [Item.tokens, Import.tokens]
          obtain ⟨steps, rfl⟩ := Nat.exists_eq_add_of_le' (by omega : 1 ≤ steps)
          have read := reads_import distinct.new_import settled plain
          rw [← Program.extend_borrowing] at distinct ⊢
          have head : (prepend (Item.tokens spell (.borrowing decl))
              (prepend (items.flatMap (Item.tokens spell)) (.endOfInput p))).current.kind =
              .keyword .import := rfl
          simp only [program, kind_bind, head]
          rw [Item.tokens, bind_of_ok read]
          exact ih distinct others (by omega)
      | function f =>
          have some : 1 ≤ (Item.tokens spell (.function f)).length := by
            simp [Item.tokens, Function.tokens]
          obtain ⟨steps, rfl⟩ := Nat.exists_eq_add_of_le' (by omega : 1 ≤ steps)
          have room : 8 * (f.tokens spell).length ≤ steps := by
            rw [Item.tokens] at enough some
            omega
          have read := reads_function distinct.new_function own settled room
          rw [← Program.extend_function] at distinct ⊢
          have head : (prepend (Item.tokens spell (.function f))
              (prepend (items.flatMap (Item.tokens spell)) (.endOfInput p))).current.kind =
              .keyword .function := rfl
          simp only [program, kind_bind, head]
          rw [Item.tokens, bind_of_ok read]
          exact ih distinct others (by omega)

end Parser

namespace Tape

/-- Tokens that fit, with blanks between them, are the tokens of the text. -/
theorem ofChars_text {tokens : List Token} (fitting : Fitting tokens) (position : Position) :
    (ofChars position (List.intercalate [' '] (tokens.map source))).unplaced =
      (prepend tokens (.endOfInput .start)).unplaced := by
  induction tokens generalizing position with
  | nil => simp [List.intercalate_nil, ofChars, unplaced, relocate]
  | cons token tokens ih =>
      obtain ⟨fits, others⟩ := List.forall_mem_cons.1 fitting
      cases tokens with
      | nil =>
          rw [List.map_cons, List.map_nil, List.intercalate_singleton,
            ← List.append_nil token.source, ofChars_source fits (apart_nil.ends token)]
          refine unplaced_next rfl rfl ?_
          simp [ofChars, unplaced, relocate]
      | cons later tokens =>
          have blank : Apart (' ' :: List.intercalate [' '] ((later :: tokens).map source)) :=
            apart_cons.2 rfl
          rw [List.map_cons, List.map_cons, List.intercalate_cons_cons, ← List.map_cons,
            List.append_assoc, List.singleton_append, ofChars_source fits (blank.ends token),
            ofChars_blank rfl]
          exact unplaced_next rfl rfl (ih others _)

end Tape

namespace Program

/-- The tokens of distinct and orderly items make up their program. -/
theorem ofTape_tokens (spell : Position → Float → String) {items : List Item}
    (distinct : (ofItems items).Distinct) (orderly : ∀ item ∈ items, item.Orderly) :
    ofTape (prepend (items.flatMap (Item.tokens spell)) (.endOfInput .start)) =
      .ok (ofItems items) := by
  have settled := (Parser.items_begin spell items .start).1
  have new : (empty.extend items).Distinct := by rwa [extend_empty]
  have enough : 8 * (items.flatMap (Item.tokens spell)).length + 1 ≤
      8 * (prepend (items.flatMap (Item.tokens spell)) (.endOfInput .start)).length + 8 := by
    rw [length_prepend]
    omega
  have read := Parser.reads_program .start items new orderly enough
  rw [extend_empty] at read
  rw [ofTape, show Tape.settle _ = _ from settled]
  change (Parser.program .empty _ _ >>= _) = _
  rw [read]
  rfl

/-- **A program written down is read back.**  Items have different names, only names, strings and
numbers that can be written, and no `return` without a value in front of a statement: then the
text of them reads as their program, up to places. -/
theorem written_reads_back (spell : Position → Float → String) {items : List Item}
    (distinct : (ofItems items).Distinct) (spelled : ∀ item ∈ items, item.Spelled spell)
    (orderly : ∀ item ∈ items, item.Orderly) :
    ∃ p, ofText (Item.text spell items) = .ok p ∧ p.unplaced = (ofItems items).unplaced := by
  have same : (Tape.ofText (Item.text spell items)).unplaced =
      (prepend (items.flatMap (Item.tokens spell)) (.endOfInput .start)).unplaced := by
    rw [Tape.ofText, Item.text, String.toList_ofList]
    exact ofChars_text (Item.fitting_tokens spelled) .start
  exact ofTape_of_unplaced same (ofTape_tokens spell distinct orderly)

/-- A renamed import, a comparison inside a dictionary and a `return` without a value. -/
theorem written_comparison_reads_back :
    let number := (Number.Parts.nearest false 45 10).pack
    let comparison := .binary .start .greater (.name .start "x") (.number .start number)
    let dict := .assign .start "x" (.dict .start [(.name "k", comparison)])
    let f : Function := ⟨"f", ["x"], [.expr dict, .return .start none], .start⟩
    let items := [.borrowing ⟨"math", "sqrt", "root", .start⟩, .function f]
    let text := "import math . sqrt as root fun f ( x ) \x7b " ++
      "( x = < k : ( x > 4.5 ) > ) return \x7d"
    ∃ p, ofText text = .ok p ∧ p.unplaced = (ofItems items).unplaced := by
  intro number comparison dict f items text
  have name : ∀ word ∈ ["math", "sqrt", "root", "f", "x", "k"], IsName word := by
    simp only [List.forall_mem_cons]
    refine ⟨?_, ?_, ?_, ?_, ?_, ?_, List.forall_mem_nil _⟩ <;>
      exact ⟨⟨_, _, rfl, by decide, List.all_eq_true.1 (by decide)⟩, by decide, by decide⟩
  have numeral : IsNumeral "4.5" number :=
    ⟨'4', ['.', '5'], rfl, by decide, List.all_eq_true.1 (by decide), rfl⟩
  have shown : Item.text (fun _ _ => "4.5") items = text := by cbv
  rw [← shown]
  refine written_reads_back _ ?distinct ?spelled ?orderly
  case distinct => exact ⟨by decide, by decide⟩
  case spelled =>
    have written : f.Spelled fun _ _ => "4.5" := by
      have parts : ∀ part ∈ dict.parts, part.Spelled fun _ _ => "4.5" := by
        change ∀ part ∈ [dict, _, comparison, _, _], part.Spelled _
        simp only [List.forall_mem_cons]
        exact ⟨name "x" (by decide), List.forall_mem_singleton.2 (name "k" (by decide)), trivial,
          name "x" (by decide), numeral, List.forall_mem_nil _⟩
      refine ⟨name "f" (by decide), List.forall_mem_singleton.2 (name "x" (by decide)), ?_⟩
      change ∀ s ∈ [Stmt.expr dict, .return .start none], s.Spelled _
      simp only [List.forall_mem_cons]
      refine ⟨⟨?_, List.forall_mem_singleton.2 parts⟩, ⟨?_, List.forall_mem_nil _⟩,
        List.forall_mem_nil _⟩ <;> simp
    have borrowed : Import.Spelled ⟨"math", "sqrt", "root", .start⟩ :=
      ⟨name "math" (by decide), name "sqrt" (by decide), name "root" (by decide)⟩
    exact List.forall_mem_cons.2 ⟨borrowed, List.forall_mem_singleton.2 written⟩
  case orderly =>
    have last : Stmt.ReturnsLast f.body := by
      intro before p after same
      rcases before with _ | ⟨first, _ | ⟨second, before⟩⟩ <;> simp_all [f]
    have inside : ∀ s ∈ f.statements, s.Orderly := by
      change ∀ s ∈ [Stmt.expr dict, .return .start none], ∀ body ∈ s.blocks, Stmt.ReturnsLast body
      simp [Stmt.blocks]
    exact List.forall_mem_cons.2 ⟨trivial, List.forall_mem_singleton.2 ⟨last, inside⟩⟩

end Program

end Script
