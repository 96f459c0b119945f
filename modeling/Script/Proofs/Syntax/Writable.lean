/-
# Script.Proofs.Syntax.Writable -- what can be written down

Names have to be words that are not reserved, strings have no quote inside, and numbers
have to have a literal.  Nothing else of a tree can stand in the way: then all tokens of
it fit their kinds.  Each condition is on one node (`Expr.Spelled`, `Stmt.Spelled`) and is
asked of all nodes there are.
-/
import Script.Proofs.Syntax.Parts
import Script.Proofs.Syntax.Printer

namespace Script

set_option autoImplicit false

open Token

namespace EntryKey

def Spelled : EntryKey → Prop
  | .literal text => '"' ∉ text.toList
  | .name word => Tape.IsName word

theorem fits_token {key : EntryKey} (spelled : key.Spelled) : key.token.Fits := by
  cases key <;> exact spelled

end EntryKey

namespace Token

/-- All tokens fit. -/
def Fitting (tokens : List Token) : Prop :=
  ∀ token ∈ tokens, token.Fits

theorem fitting_nil : Fitting [] :=
  fun _ member => absurd member List.not_mem_nil

theorem Fits.cons {token : Token} {tokens : List Token} (fits : token.Fits)
    (fitting : Fitting tokens) : Fitting (token :: tokens) :=
  List.forall_mem_cons.2 ⟨fits, fitting⟩

theorem Fits.alone {token : Token} (fits : token.Fits) : Fitting [token] :=
  fits.cons fitting_nil

theorem Fitting.append {tokens later : List Token} (first : Fitting tokens)
    (second : Fitting later) : Fitting (tokens ++ later) :=
  List.forall_mem_append.2 ⟨first, second⟩

theorem fits_ofSign (sign : Sign) (p : Position) : (ofSign sign p).Fits := rfl

theorem fits_ofWord (word : Keyword) (p : Position) : (ofWord word p).Fits := rfl

theorem fits_ofName {name : String} (isName : Tape.IsName name) (p : Position) :
    (ofName name p).Fits := isName

theorem fits_mark (sign : Sign) : (mark sign).Fits := rfl

theorem Fitting.grouped {tokens : List Token} (fitting : Fitting tokens) :
    Fitting (grouped tokens) :=
  (Fits.cons (fits_mark _) fitting).append (fits_mark _).alone

theorem Fitting.braced {tokens : List Token} (fitting : Fitting tokens) (p : Position) :
    Fitting (braced p tokens) :=
  (Fits.cons (fits_ofSign _ p) fitting).append (fits_mark _).alone

end Token

variable {spell : Position → Float → String}

namespace Expr

/-- What the node itself holds can be written; its parts are not looked at. -/
def Spelled (spell : Position → Float → String) : Expr → Prop
  | .number p x => Tape.IsNumeral (spell p x) x
  | .string _ text => '"' ∉ text.toList
  | .dict _ entries => ∀ entry ∈ entries, entry.1.Spelled
  | .name _ word | .assign _ word _ | .field _ _ word | .method _ _ word _ | .call _ word _ =>
      Tape.IsName word
  | _ => True

theorem fitting_wrap {e : Expr} {plain : Bool → List Token}
    (fitting : ∀ greater, Fitting (plain greater)) (level : Nat) (greater : Bool) :
    Fitting (e.wrap level greater plain) := by
  unfold wrap
  split
  · exact fitting greater
  · exact (fitting true).grouped

mutual

theorem fitting_plain : ∀ (e : Expr), (∀ part ∈ e.parts, part.Spelled spell) → ∀ greater,
    Fitting (e.plain spell greater)
  | .number p x, spelled, _ => Fits.alone (spelled _ (mem_parts_self (.number p x)))
  | .string p text, spelled, _ => Fits.alone (spelled _ (mem_parts_self (.string p text)))
  | .bool p true, _, _ => (fits_ofWord _ p).alone
  | .bool p false, _, _ => (fits_ofWord _ p).alone
  | .null p, _, _ => (fits_ofWord _ p).alone
  | .typeName p tag, _, _ => Fits.alone rfl
  | .name p word, spelled, _ => Fits.alone (spelled _ (mem_parts_self (.name p word)))
  | .list p items, spelled, _ => by
      obtain ⟨-, inside⟩ := List.forall_mem_cons.1 spelled
      have items := fitting_itemTokens items inside
      exact (Fits.cons (fits_ofSign _ p) items).append (fits_mark _).alone
  | .dict p entries, spelled, _ => by
      obtain ⟨keys, inside⟩ := List.forall_mem_cons.1 spelled
      have entries := fitting_entryTokens entries keys inside
      exact (Fits.cons (fits_ofSign _ p) entries).append (fits_mark _).alone
  | .assign p word value, spelled, greater => by
      obtain ⟨own, right⟩ := List.forall_mem_cons.1 spelled
      have value := fitting_wrap (e := value) (fitting_plain value right) 0 greater
      exact ((fits_ofName own p).alone.append (fits_mark _).alone).append value
  | .binary p op left right, spelled, greater => by
      obtain ⟨-, inside⟩ := List.forall_mem_cons.1 spelled
      obtain ⟨first, second⟩ := List.forall_mem_append.1 inside
      have first := fitting_wrap (e := left) (fitting_plain left first) op.level greater
      have second := fitting_wrap (e := right) (fitting_plain right second) (op.level + 1) greater
      exact (first.append (fits_ofSign _ p).alone).append second
  | .unary p op operand, spelled, greater => by
      obtain ⟨-, inside⟩ := List.forall_mem_cons.1 spelled
      exact Fits.cons (fits_ofSign _ p) (fitting_wrap (fitting_plain operand inside) 7 greater)
  | .index p target i, spelled, greater => by
      obtain ⟨-, inside⟩ := List.forall_mem_cons.1 spelled
      obtain ⟨target', index⟩ := List.forall_mem_append.1 inside
      have first := fitting_wrap (e := target) (fitting_plain target target') 8 greater
      exact ((first.append (fits_ofSign _ p).alone).append (fitting_plain i index true)).append
        (fits_mark _).alone
  | .setIndex p target i value, spelled, greater => by
      obtain ⟨-, inside⟩ := List.forall_mem_cons.1 spelled
      obtain ⟨inside, right⟩ := List.forall_mem_append.1 inside
      obtain ⟨target', index⟩ := List.forall_mem_append.1 inside
      have first := fitting_wrap (e := target) (fitting_plain target target') 8 greater
      have place := ((first.append (fits_ofSign .openBracket p).alone).append
        (fitting_plain i index true)).append (fits_mark .closeBracket).alone
      have value := fitting_wrap (e := value) (fitting_plain value right) 0 greater
      exact (place.append (fits_mark _).alone).append value
  | .field p target word, spelled, greater => by
      obtain ⟨own, inside⟩ := List.forall_mem_cons.1 spelled
      have first := fitting_wrap (e := target) (fitting_plain target inside) 8 greater
      exact (first.append (fits_mark _).alone).append (fits_ofName own p).alone
  | .method p target word args, spelled, greater => by
      obtain ⟨own, inside⟩ := List.forall_mem_cons.1 spelled
      obtain ⟨target', items⟩ := List.forall_mem_append.1 inside
      have first := fitting_wrap (e := target) (fitting_plain target target') 8 greater
      exact ((first.append (fits_mark _).alone).append (fits_ofName own p).alone).append
        (fitting_itemTokens args items).grouped
  | .call p callee args, spelled, _ => by
      obtain ⟨own, items⟩ := List.forall_mem_cons.1 spelled
      exact (fits_ofName own p).cons (fitting_itemTokens args items).grouped

theorem fitting_itemTokens : ∀ (items : List Expr),
    (∀ part ∈ itemParts items, part.Spelled spell) → Fitting (itemTokens spell items)
  | [], _ => fitting_nil
  | e :: rest, spelled => by
      obtain ⟨first, others⟩ := List.forall_mem_append.1 spelled
      exact (fitting_plain e first true).append (fitting_moreTokens rest others)

theorem fitting_moreTokens : ∀ (items : List Expr),
    (∀ part ∈ itemParts items, part.Spelled spell) → Fitting (moreTokens spell items)
  | [], _ => fitting_nil
  | e :: rest, spelled => by
      obtain ⟨first, others⟩ := List.forall_mem_append.1 spelled
      exact (Fits.cons (fits_mark _) (fitting_plain e first true)).append
        (fitting_moreTokens rest others)

theorem fitting_entryTokens : ∀ (entries : List (EntryKey × Expr)),
    (∀ entry ∈ entries, entry.1.Spelled) → (∀ part ∈ entryParts entries, part.Spelled spell) →
      Fitting (entryTokens spell entries)
  | [], _, _ => fitting_nil
  | (key, e) :: rest, keys, spelled => by
      obtain ⟨own, keys⟩ := List.forall_mem_cons.1 keys
      obtain ⟨first, others⟩ := List.forall_mem_append.1 spelled
      have entry := Fits.cons (EntryKey.fits_token own)
        (Fits.cons (fits_mark .colon) (fitting_wrap (e := e) (fitting_plain e first) 0 false))
      exact entry.append (fitting_moreEntryTokens rest keys others)

theorem fitting_moreEntryTokens : ∀ (entries : List (EntryKey × Expr)),
    (∀ entry ∈ entries, entry.1.Spelled) → (∀ part ∈ entryParts entries, part.Spelled spell) →
      Fitting (moreEntryTokens spell entries)
  | [], _, _ => fitting_nil
  | (key, e) :: rest, keys, spelled => by
      obtain ⟨own, keys⟩ := List.forall_mem_cons.1 keys
      obtain ⟨first, others⟩ := List.forall_mem_append.1 spelled
      have entry := Fits.cons (EntryKey.fits_token own)
        (Fits.cons (fits_mark .colon) (fitting_wrap (e := e) (fitting_plain e first) 0 false))
      exact (Fits.cons (fits_mark _) entry).append (fitting_moreEntryTokens rest keys others)

end

end Expr

namespace Stmt

/-- The name and the expressions that the statement itself holds can be written. -/
structure Spelled (spell : Position → Float → String) (s : Stmt) : Prop where
  name : ∀ p word value, s = .declare p word value → Tape.IsName word
  operands : ∀ e ∈ s.operands, ∀ part ∈ e.parts, part.Spelled spell

theorem fitting_group {e : Expr} (spelled : ∀ part ∈ e.parts, part.Spelled spell) :
    Fitting (grouped (e.plain spell true)) :=
  (Expr.fitting_plain e spelled true).grouped

theorem fitting_optionTokens {value : Option Expr}
    (spelled : ∀ e ∈ value.toList, ∀ part ∈ e.parts, part.Spelled spell) :
    Fitting (Expr.optionTokens spell value) := by
  cases value with
  | none => exact fitting_nil
  | some e => exact Expr.fitting_plain e (spelled e (List.mem_singleton.2 rfl)) true

theorem fitting_declaration {p : Position} {name : String} {value : Expr}
    (spelled : Spelled spell (.declare p name value)) :
    Fitting (declarationTokens spell p name value) := by
  have group := fitting_group (spelled.operands value (List.mem_singleton.2 rfl))
  have named := fits_ofName (spelled.name p name value rfl) p
  exact (fits_ofWord _ _).cons (named.cons ((fits_mark _).cons group))

theorem fitting_start {start : LoopStart} (spelled : ∀ s ∈ start.statement?, Spelled spell s) :
    Fitting (start.tokens spell) := by
  cases start with
  | nothing => exact fitting_nil
  | declare p name value => exact fitting_declaration (spelled _ rfl)
  | expr e => exact fitting_group ((spelled _ rfl).operands e (List.mem_singleton.2 rfl))

mutual

theorem fitting_tokens : ∀ (s : Stmt), (∀ part ∈ s.parts, part.Spelled spell) →
    Fitting (s.tokens spell)
  | .declare p name value, spelled =>
      fitting_declaration (spelled _ (mem_parts_self (.declare p name value)))
  | .expr e, spelled => by
      have own := spelled _ (mem_parts_self (.expr e))
      exact fitting_group (own.operands e (List.mem_singleton.2 rfl))
  | .return p none, _ => (fits_ofWord _ p).alone
  | .return p (some e), spelled => by
      have own := spelled _ (mem_parts_self (.return p (some e)))
      exact (fits_ofWord _ p).cons (fitting_group (own.operands e (List.mem_singleton.2 rfl)))
  | .branch p condition yes none, spelled => by
      obtain ⟨own, inside⟩ := List.forall_mem_cons.1 spelled
      have test := fitting_group (own.operands condition (List.mem_singleton.2 rfl))
      exact ((fits_ofWord _ p).cons test).append ((fitting_blockTokens yes inside).braced _)
  | .branch p condition yes (some no), spelled => by
      obtain ⟨own, inside⟩ := List.forall_mem_cons.1 spelled
      obtain ⟨first, second⟩ := List.forall_mem_append.1 inside
      have test := fitting_group (own.operands condition (List.mem_singleton.2 rfl))
      have taken := ((fits_ofWord .if p).cons test).append
        ((fitting_blockTokens yes first).braced .start)
      exact (taken.append (fits_ofWord _ _).alone).append
        ((fitting_blockTokens no second).braced _)
  | .loop p start condition step body, spelled => by
      obtain ⟨own, inside⟩ := List.forall_mem_cons.1 spelled
      obtain ⟨first, rounds⟩ := List.forall_mem_append.1 inside
      obtain ⟨tested, stepped⟩ := List.forall_mem_append.1 own.operands
      have before : Fitting (start.tokens spell) :=
        fitting_start fun s member => first s (Option.mem_toList.2 member)
      have opening := (fits_ofWord .for p).cons ((fits_mark .openParen).cons before)
      have test := (opening.append (fits_mark .semicolon).alone).append
        (fitting_optionTokens tested)
      have header := ((test.append (fits_mark .semicolon).alone).append
        (fitting_optionTokens stepped)).append (fits_mark .closeParen).alone
      exact header.append ((fitting_blockTokens body rounds).braced _)
  | .block p body, spelled => by
      obtain ⟨-, inside⟩ := List.forall_mem_cons.1 spelled
      exact (fitting_blockTokens body inside).braced p

theorem fitting_blockTokens : ∀ (body : List Stmt),
    (∀ part ∈ blockParts body, part.Spelled spell) → Fitting (blockTokens spell body)
  | [], _ => fitting_nil
  | s :: rest, spelled => by
      obtain ⟨first, others⟩ := List.forall_mem_append.1 spelled
      exact (fitting_tokens s first).append (fitting_blockTokens rest others)

end

end Stmt

namespace Function

/-- The names, the parameters and all nodes of the function can be written. -/
structure Spelled (spell : Position → Float → String) (f : Function) : Prop where
  name : Tape.IsName f.name
  params : ∀ param ∈ f.params, Tape.IsName param
  body : ∀ s ∈ f.statements, s.Spelled spell

theorem fitting_moreNameTokens : ∀ (names : List String), (∀ name ∈ names, Tape.IsName name) →
    Fitting (moreNameTokens names)
  | [], _ => fitting_nil
  | name :: rest, spelled => by
      obtain ⟨first, others⟩ := List.forall_mem_cons.1 spelled
      exact (fits_mark _).cons ((fits_ofName first _).cons (fitting_moreNameTokens rest others))

theorem fitting_nameTokens {names : List String} (spelled : ∀ name ∈ names, Tape.IsName name) :
    Fitting (nameTokens names) := by
  cases names with
  | nil => exact fitting_nil
  | cons name rest =>
      obtain ⟨first, others⟩ := List.forall_mem_cons.1 spelled
      exact (fits_ofName first _).cons (fitting_moreNameTokens rest others)

theorem fitting_tokens {f : Function} (spelled : f.Spelled spell) : Fitting (f.tokens spell) := by
  have params := (fitting_nameTokens spelled.params).grouped
  have named := (fits_ofName spelled.name f.position).cons params
  have head := (fits_ofWord .function .start).cons named
  exact head.append ((Stmt.fitting_blockTokens f.body spelled.body).braced _)

end Function

namespace Import

/-- The names of the import can be written. -/
structure Spelled (decl : Import) : Prop where
  module : Tape.IsName decl.module
  name : Tape.IsName decl.name
  newName : Tape.IsName decl.newName

theorem fitting_tokens {decl : Import} (spelled : decl.Spelled) : Fitting decl.tokens := by
  have named := (fits_ofName spelled.name decl.position).alone
  have head := (fits_ofWord .import .start).cons
    ((fits_ofName spelled.module .start).cons ((fits_mark .dot).cons named))
  refine head.append ?_
  split
  · exact fitting_nil
  · exact (fits_ofWord _ _).cons (fits_ofName spelled.newName _).alone

end Import

namespace Item

def Spelled (spell : Position → Float → String) : Item → Prop
  | .borrowing decl => decl.Spelled
  | .function f => f.Spelled spell

theorem fitting_tokens {items : List Item} (spelled : ∀ item ∈ items, item.Spelled spell) :
    Fitting (items.flatMap (tokens spell)) := by
  intro token member
  obtain ⟨item, found, inside⟩ := List.mem_flatMap.1 member
  have item_ := spelled item found
  cases item with
  | borrowing decl => exact Import.fitting_tokens item_ token inside
  | function f => exact Function.fitting_tokens item_ token inside

end Item

end Script
