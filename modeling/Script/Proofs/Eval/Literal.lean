/-
# Script.Proofs.Eval.Literal -- the dictionary that a literal makes

A literal has for each entry a key and a value, found one after the other (`Eval.entryPairs`), and
makes the dictionary that inserting these makes: the one that writing them by index, one after the
other, to the empty literal makes, in the same place of the store.  So what is known of
dictionaries that come about by insertions holds of both.
-/
import Script.Eval.Evaluate
import Script.Proofs.Dict
import Script.Proofs.Eval.Ending

namespace Script

set_option autoImplicit false

/-- Writing to the newest container, a dictionary, is as good as making it with the entry. -/
theorem Store.setEntry_newDict (s : Store) (d : Dict Value) (key : String) (value : Value) :
    (s.newDict d).2.setEntry s.size key value = (s.newDict (d.insert key value)).2 := by
  refine congrArg Store.mk (Array.ext_getElem? fun slot => ?_)
  rw [newDict, Array.getElem?_modify, Array.getElem?_push, Array.getElem?_push]
  by_cases last : slot = s.cells.size
  · rw [if_pos (by rw [last, Store.size]), if_pos last, if_pos last]
    rfl
  · rw [if_neg (by rw [Store.size]; exact Ne.symm last), if_neg last, if_neg last]

namespace Eval

/-- The keys and values of the entries of the literal at `position`. -/
def entryPairs (t : FunctionTable) (position : Position) (entries : List (EntryKey × Expr)) :
    Nat → Run (List (String × Value))
  | 0 => Run.exhausted
  | steps + 1 =>
      match entries with
      | [] => return []
      | (key, e) :: rest => do
          let key ← entryKey position key
          let value ← expr t e steps
          let pairs ← entryPairs t position rest steps
          return (key, value) :: pairs

/-- Writes `target[key] = value` for each of the pairs. -/
def writePairs (position : Position) (target : Value) : List (String × Value) → Run Unit
  | [] => return ()
  | (key, value) :: rest => do
      let place ← Run.attempt position (·.place target (.string key))
      Run.write place value
      writePairs position target rest

variable {t : FunctionTable} {p : Position}

/-- The entries of a literal are inserted when all of them are there. -/
theorem dictEntries_eq (t : FunctionTable) (p : Position) :
    ∀ (entries : List (EntryKey × Expr)) (filled : Dict Value) (steps : Nat),
      dictEntries t p entries filled steps = entryPairs t p entries steps >>= fun pairs =>
        pure (pairs.foldl (fun d pair => d.insert pair.1 pair.2) filled)
  | _, _, 0 => by
      simp only [dictEntries, entryPairs]
      rfl
  | [], _, _ + 1 => by simp only [dictEntries, entryPairs, pure_bind, List.foldl_nil]
  | (key, e) :: rest, filled, steps + 1 => by
      simp only [dictEntries, entryPairs, bind_assoc, pure_bind]
      refine bind_congr fun key => bind_congr fun value => ?_
      exact dictEntries_eq t p rest (filled.insert key value) steps

/-- Writing pairs by index to the newest container, a dictionary, inserts them. -/
theorem writePairs_newDict (p : Position) (pairs : List (String × Value)) :
    ∀ (d : Dict Value) (s : State),
      writePairs p (s.store.newDict d).1 pairs { s with store := (s.store.newDict d).2 } =
        .done () { s with store := (s.store.newDict
          (pairs.foldl (fun d pair => d.insert pair.1 pair.2) d)).2 } := by
  induction pairs with
  | nil => exact fun d s => rfl
  | cons pair rest ih =>
      intro d s
      have next := s.store.setEntry_newDict d pair.1 pair.2
      have first : writePairs p (s.store.newDict d).1 (pair :: rest)
            { s with store := (s.store.newDict d).2 } =
          writePairs p (s.store.newDict d).1 rest
            { s with store := (s.store.newDict d).2.setEntry s.store.size pair.1 pair.2 } := rfl
      rw [first, next]
      exact ih (d.insert pair.1 pair.2) s

/-- **Dictionaries are maps that remember the order of insertions.**  When pairs have been inserted
into a new dictionary, one after the other, a key leads to the last value inserted under it; the
entries have each key inserted once, in the order in which the keys first came, with the value that
it leads to; the size is the number of different keys; and the index has each of these keys with its
place, which is inside, and no other.  A literal makes the dictionary of its keys and values, and
the outcome is that of writing these by index to the dictionary that an empty literal makes. -/
theorem dictionaries_remember_insertions (pairs : List (String × Value)) :
    let d := Dict.ofList pairs
    let inserted := pairs.map Prod.fst
    (∀ key, d.find? key = pairs.reverse.lookup key) ∧
    d.toList.map Prod.fst = inserted.eraseDups ∧ (d.toList.map Prod.fst).Nodup ∧
    (∀ key value, (key, value) ∈ d.toList ↔ d.find? key = some value) ∧
    d.size = inserted.toFinset.card ∧
    (∀ key, d.index[key]? = inserted.eraseDups.idxOf? key) ∧
    (∀ key slot, d.index[key]? = some slot →
      ∃ inside : slot < d.entries.size, d.entries[slot].1 = key) ∧
    ∀ t p entries steps more,
      expr t (.dict p entries) (steps + 1) = (entryPairs t p entries steps >>= fun pairs =>
        Run.make (·.newDict (.ofList pairs))) ∧
      expr t (.dict p entries) (steps + 1) = do
        let pairs ← entryPairs t p entries steps
        let target ← expr t (.dict p []) (more + 2)
        writePairs p target pairs
        return target := by
  intro d inserted
  refine ⟨Dict.find?_ofList pairs, Dict.keys_ofList pairs, Dict.nodup_keys d,
    fun key value => Dict.find?_eq_some_iff.symm, Dict.size_ofList pairs, fun key => ?_,
    fun key slot found => ?_, fun t p entries steps more => ?_⟩
  · rw [Dict.index_eq_idxOf?, Dict.keys_ofList]
  · have place := (d.indexed key slot).1 found
    obtain ⟨entry, there, same⟩ := Option.map_eq_some_iff.1 place
    obtain ⟨inside, rfl⟩ := Array.getElem?_eq_some_iff.1 there
    exact ⟨inside, same⟩
  · have made : expr t (.dict p entries) (steps + 1) = entryPairs t p entries steps >>= fun pairs =>
        Run.make (·.newDict (.ofList pairs)) := by
      simp only [expr, dictEntries_eq, bind_assoc, pure_bind]
      rfl
    refine ⟨made, made.trans (bind_congr fun pairs => funext fun s => ?_)⟩
    have written := writePairs_newDict p pairs .empty s
    change _ = Run.bind (writePairs p (s.store.newDict .empty).1 pairs)
      (fun _ => Run.pure (s.store.newDict .empty).1) { s with store := (s.store.newDict .empty).2 }
    rw [Run.bind, written]
    rfl

end Eval

end Script
