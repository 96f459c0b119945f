/-
# Script.Proofs.Library.Conversions -- texts as lists of characters, and back

`stringToList` and `listToString` have one shape: an empty list or text, to which all parts of the
argument are added, and which is returned then (`apply_conversion`).  So the one gives a new list of
the characters of a text (`apply_stringToList`), and the other the text of a list of characters
(`apply_listToString`).
-/
import Script.Proofs.Library.Parts

namespace Script

set_option autoImplicit false

namespace Eval

/-! ## Characters as texts -/

variable {cs ds : List Char}

@[simp] theorem length_letters (cs : List Char) : (letters cs).length = cs.length :=
  List.length_map _

theorem letters_injective : Function.Injective letters :=
  List.map_injective_iff.2 fun _ _ same => String.singleton_inj.1 (Value.string.inj same)

theorem mem_letters {x : Value} : x ∈ letters cs ↔ ∃ c ∈ cs, .string (String.singleton c) = x :=
  List.mem_map

end Eval

/-- Only one text has these characters. -/
theorem Store.Spells.eq_string {s : Store} {v : Value} {cs : List Char}
    (spells : s.Spells true v (Eval.letters cs)) : v = .string (String.ofList cs) := by
  generalize same : Eval.letters cs = parts at spells
  obtain ⟨text⟩ | ⟨-⟩ := spells
  rw [Eval.letters_injective same, String.ofList_toList]

namespace Library

open Eval

variable {t : FunctionTable} {name source text : String} {p p' : Position} {s : State}
  {asText asText' : Bool} {v : Value} {parts : List Value} {a : Nat} {cs : List Char}

theorem fits_letters (asText : Bool) (cs : List Char) : ∀ x ∈ letters cs, Fits asText x := by
  intro x inside _
  obtain ⟨c, -, rfl⟩ := mem_letters.1 inside
  exact ⟨c, rfl⟩

theorem fits_of_spells (spells : s.store.Spells asText v parts) : ∀ x ∈ parts, Fits asText x := by
  cases spells with
  | text text => exact fits_letters true text.toList
  | list held => exact fun _ _ => nofun

/-- A function that does nothing but add all parts of its argument to an empty list or text. -/
theorem apply_conversion {f : Function} {line line' line'' column column' width last : Nat}
    (called : t.find? name = some f) (plain : Intrinsic.ofName? name = none)
    (params : f.params = [source])
    (body : f.body = [.declare p' "result" (emptyOf asText line column),
      gatherLoop asText "result" source line' width (sizeOf line'' column' source),
      returnResult last])
    (names : source ∉ ["i", "result", "size"]) (unshadowed : s.scopes.target "size" = "size")
    (spells : s.store.Spells asText' v parts) (small : parts.length < 2 ^ 53)
    (fits : ∀ x ∈ parts, Fits asText x) :
    ∃ u store, Store.Grows asText s.store store ∧ store.Made s.store.size asText u parts ∧
      ∀ steps, parts.length + 20 ≤ steps →
        apply t p name [v] steps s = .done u { s with store } := by
  simp only [List.mem_cons, List.not_mem_nil, or_false, not_or] at names
  let c : State := { s with calls := s.calls.push ⟨name, p⟩ }
  have given : (c.holding [(source, v)]).scopes.lookup source = some v := by
    simp [Scopes.lookup_holding]
  have other (word : String) (differs : source ≠ word) : [(source, v)].lookup word = none := by
    simp [List.lookup_cons, beq_false_of_ne differs.symm]
  have keeps : c.Keeps [source] (c.holding [(source, v)]) :=
    (State.Keeps.refl [source] c).holding fun word away =>
      other word (by simpa [eq_comm] using away)
  have visible : (c.holding [(source, v)]).scopes.target "size" = "size" :=
    (keeps.target (by simpa using Ne.symm names.2.2)).trans unshadowed
  have bounds : Bounds t ["i", "result"] (c.holding [(source, v)]) (sizeOf line'' column' source)
      parts.length :=
    .sizeOf (by simp [names]) visible given spells
  obtain ⟨_, ⟨u, store, grows, made, rfl⟩, ended⟩ := statements_gather _ _ [returnResult last]
    ⟨by decide, names.1, names.2.1⟩ (other "result" names.2.1) given spells small fits bounds
  refine ⟨u, store, grows, made, fun steps enough => ?_⟩
  obtain ⟨more, rfl⟩ := Nat.exists_eq_add_of_le' enough
  have returned : statements t f.body (more + parts.length + 18) (c.holding [(source, v)]) =
      .done (.returned u) ({ c with store }.holding (Scope.bind "result" u [(source, v)])) := by
    rw [body]
    refine (ended p' line column (more + parts.length + 16) (by omega)).trans ?_
    exact statements_returned (statement_return (expr_name
      ((c.scopes.lookup_holding_bind _ "result" u "result").trans (if_pos rfl))))
  have params' : bindParams p f.params [v] (c.holding []) = .done () (c.holding [(source, v)]) := by
    rw [params]
    rfl
  exact apply_user plain called (by rw [Function.arity, params]; rfl) params' returned

/-- A text is made into a new list of its characters. -/
theorem apply_stringToList (bundled : Bundled t "stringToList" name)
    (unshadowed : s.scopes.target "size" = "size") (small : text.length < 2 ^ 53) :
    ∃ a store, s.store.Extends store ∧
      store.Made s.store.size false (.list a) (letters text.toList) ∧
      ∀ steps, text.length + 20 ≤ steps →
        apply t p name [.string text] steps s = .done (.list a) { s with store } := by
  have called : t.find? name = some stringToList := bundled.find? (by simp [functions])
  obtain ⟨u, store, grows, made, ended⟩ := apply_conversion (p := p) called bundled.plain rfl rfl
    (by decide) unshadowed (.text text) (by rwa [length_letters, String.length_toList])
    (fits_letters false text.toList)
  rw [length_letters, String.length_toList] at ended
  obtain ⟨-, -⟩ | @⟨a, _, held⟩ := made.spells
  exact ⟨a, store, grows.extended, made, ended⟩

/-- A list of characters is joined to a text, and nothing is stored. -/
theorem apply_listToString (bundled : Bundled t "listToString" name)
    (unshadowed : s.scopes.target "size" = "size")
    (held : s.store.cells[a]? = some (.list (letters cs).toArray)) (small : cs.length < 2 ^ 53)
    {steps : Nat} (enough : cs.length + 20 ≤ steps) :
    apply t p name [.list a] steps s = .done (.string (String.ofList cs)) s := by
  have called : t.find? name = some listToString := bundled.find? (by simp [functions])
  obtain ⟨u, store, grows, made, ended⟩ := apply_conversion (p := p) called bundled.plain rfl rfl
    (by decide) unshadowed (.list held) (by simpa using small) (fits_letters true cs)
  obtain rfl := grows.kept rfl
  obtain rfl := made.spells.eq_string
  exact ended steps (by rwa [length_letters])

end Library

end Script
