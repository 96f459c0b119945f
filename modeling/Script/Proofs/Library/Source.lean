/-
# Script.Proofs.Library.Source -- the text of some functions, as trees

What the kernel finds when it reads module `std` is that these of its functions are the trees given
here (`standard_functions`).  No function of the module calls another one, so what they have in
common stands in the text of each, and here once: the two loops that sort (`sortLoop`), the loop
that adds all parts of a list or a text to another (`gatherLoop`), the beginning that finds out
whether to make a text or a list (`emptyLike`), and the loop that passes over blanks (`stripLoop`).

Every place is given by the line and the column of what it is part of, as the text is laid out.
-/
import Script.Proofs.Module.Standard
import Script.Proofs.Syntax.Sameness

namespace Script.Library

set_option autoImplicit false

open Number (ofNat)

/-! ## Expressions -/

/-- `word + 1`, for a word of one letter. -/
def plusOne (line column : Nat) (word : String) : Expr :=
  .binary ⟨line, column + 2⟩ .add (.name ⟨line, column⟩ word) (.number ⟨line, column + 4⟩ (ofNat 1))

/-- `size(word)`. -/
def sizeOf (line column : Nat) (word : String) : Expr :=
  .call ⟨line, column⟩ "size" [.name ⟨line, column + 5⟩ word]

/-- `list[index]`. -/
def itemAt (list : String) (line column : Nat) (index : Expr) : Expr :=
  .index ⟨line, column + list.length⟩ (.name ⟨line, column⟩ list) index

/-- `source[i]`. -/
def partAt (source : String) (line column : Nat) : Expr :=
  itemAt source line column (.name ⟨line, column + source.length + 1⟩ "i")

/-- An empty text, or an empty list. -/
def emptyOf (asText : Bool) (line column : Nat) : Expr :=
  if asText then .string ⟨line, column⟩ "" else .list ⟨line, column⟩ []

/-- What is added for the part at `i`: to a text the part, to a list another one that holds it. -/
def addend (asText : Bool) (source : String) (line column : Nat) : Expr :=
  if asText then partAt source line column
  else .list ⟨line, column⟩ [partAt source line (column + 1)]

/-! ## Statements -/

/-- `for (var word = 0; word < bound; word = word + 1)` and a body; the bound is `width` wide and
begins twenty columns behind the loop. -/
def countLoop (line column : Nat) (word : String) (width : Nat) (bound : Expr) (body : List Stmt) :
    Stmt :=
  .loop ⟨line, column⟩
    (.declare ⟨line, column + 9⟩ word (.number ⟨line, column + 13⟩ (ofNat 0)))
    (some (.binary ⟨line, column + 18⟩ .less (.name ⟨line, column + 16⟩ word) bound))
    (some (.assign ⟨line, column + width + 22⟩ word (plusOne line (column + width + 26) word)))
    body

/-- `word = value`. -/
def setTo (line column : Nat) (word : String) (value : Expr) : Stmt :=
  .expr (.assign ⟨line, column⟩ word value)

/-- `list[index] = value`. -/
def setItemAt (list : String) (line column : Nat) (index value : Expr) : Stmt :=
  .expr (.setIndex ⟨line, column + list.length⟩ (.name ⟨line, column⟩ list) index value)

/-- `target = target + source[i]`, or with `[source[i]]`. -/
def addPart (asText : Bool) (target source : String) (line column : Nat) : Stmt :=
  setTo line column target
    (.binary ⟨line, column + 2 * target.length + 4⟩ .add
      (.name ⟨line, column + target.length + 3⟩ target)
      (addend asText source line (column + 2 * target.length + 6)))

/-- The loop that adds all parts of a value to another one. -/
def gatherLoop (asText : Bool) (target source : String) (line width : Nat) (bound : Expr) : Stmt :=
  countLoop line 5 "i" width bound [addPart asText target source (line + 1) 9]

/-- `return result`. -/
def returnResult (line : Nat) : Stmt :=
  .return ⟨line, 5⟩ (some (.name ⟨line, 12⟩ "result"))

/-! ## Sorting -/

/-- Two neighbours change places, by way of `tmp`. -/
def exchange (list : String) (line : Nat) : List Stmt :=
  [.declare ⟨line, 21⟩ "tmp" (itemAt list line 27 (.name ⟨line, 33⟩ "j")),
    setItemAt list (line + 1) 17 (.name ⟨line + 1, 23⟩ "j")
      (itemAt list (line + 1) 28 (plusOne (line + 1) 34 "j")),
    setItemAt list (line + 2) 17 (plusOne (line + 2) 23 "j") (.name ⟨line + 2, 32⟩ "tmp")]

/-- Two neighbours change places if the first is greater. -/
def exchangeGreater (list : String) (line : Nat) : Stmt :=
  .branch ⟨line, 13⟩
    (.binary ⟨line, 26⟩ .greater (itemAt list line 17 (.name ⟨line, 23⟩ "j"))
      (itemAt list line 28 (plusOne line 34 "j")))
    (exchange list (line + 1)) none

/-- `n - i - 1`. -/
def lastPair (line column : Nat) : Expr :=
  .binary ⟨line, column + 6⟩ .subtract
    (.binary ⟨line, column + 2⟩ .subtract (.name ⟨line, column⟩ "n") (.name ⟨line, column + 4⟩ "i"))
    (.number ⟨line, column + 8⟩ (ofNat 1))

/-- One round over the pairs of neighbours. -/
def roundLoop (list : String) (line : Nat) : Stmt :=
  countLoop line 9 "j" 9 (lastPair line 29) [exchangeGreater list (line + 1)]

/-- As many rounds as there are items. -/
def sortLoop (list : String) (line : Nat) : Stmt :=
  countLoop line 5 "i" 1 (.name ⟨line, 25⟩ "n") [roundLoop list (line + 1)]

/-- The function that sorts a list in place. -/
def sort : Function :=
  ⟨"sort", ["items"],
    [.declare ⟨8, 9⟩ "n" (sizeOf 8 13 "items"), sortLoop "items" 9,
      .return ⟨18, 5⟩ (some (.name ⟨18, 12⟩ "items"))], ⟨7, 5⟩⟩

/-! ## Texts and lists of characters -/

/-- The function that makes a list of the characters of a text. -/
def stringToList : Function :=
  ⟨"stringToList", ["text"],
    [.declare ⟨187, 9⟩ "result" (emptyOf false 187 18),
      gatherLoop false "result" "text" 188 10 (sizeOf 188 25 "text"), returnResult 191], ⟨186, 5⟩⟩

/-- The function that joins the texts of the items of a list. -/
def listToString : Function :=
  ⟨"listToString", ["items"],
    [.declare ⟨195, 9⟩ "result" (emptyOf true 195 18),
      gatherLoop true "result" "items" 196 11 (sizeOf 196 25 "items"), returnResult 199],
    ⟨194, 5⟩⟩

/-- The function that sorts the characters of a text. -/
def sortString : Function :=
  ⟨"sortString", ["text"],
    [.declare ⟨23, 9⟩ "chars" (emptyOf false 23 17),
      gatherLoop false "chars" "text" 24 10 (sizeOf 24 25 "text"),
      .declare ⟨27, 9⟩ "n" (sizeOf 27 13 "chars"), sortLoop "chars" 28,
      .declare ⟨37, 9⟩ "result" (emptyOf true 37 18),
      gatherLoop true "result" "chars" 38 1 (.name ⟨38, 25⟩ "n"), returnResult 41], ⟨22, 5⟩⟩

/-! ## Searching -/

/-- The beginning of a function that gives a text for a text, and else a list. -/
def emptyLike (line : Nat) : List Stmt :=
  [.declare ⟨line, 9⟩ "text"
      (.binary ⟨line, 30⟩ .equal (.call ⟨line, 16⟩ "typeOf" [.name ⟨line, 23⟩ "items"])
        (.typeName ⟨line, 33⟩ .string)),
    .declare ⟨line + 1, 9⟩ "result" (emptyOf false (line + 1) 18),
    .branch ⟨line + 2, 5⟩ (.name ⟨line + 2, 9⟩ "text")
      [setTo (line + 3) 9 "result" (emptyOf true (line + 3) 18)] none]

/-- The part at `i` is added to the result, which is a text or a list. -/
def addLike (line column : Nat) : Stmt :=
  .branch ⟨line, column⟩ (.name ⟨line, column + 4⟩ "text")
    [addPart true "result" "items" (line + 1) (column + 4)]
    (some [addPart false "result" "items" (line + 3) (column + 4)])

/-- `seen` is set if the result has a part that equals the one at `i`. -/
def seenLoop (line : Nat) : Stmt :=
  countLoop line 9 "j" 12 (sizeOf line 29 "result")
    [.branch ⟨line + 1, 13⟩
      (.binary ⟨line + 1, 27⟩ .equal
        (itemAt "result" (line + 1) 17 (.name ⟨line + 1, 24⟩ "j")) (partAt "items" (line + 1) 30))
      [setTo (line + 2) 17 "seen" (.bool ⟨line + 2, 24⟩ true)] none]

/-- The part at `i` is added unless the result has one that equals it. -/
def addUnseen : List Stmt :=
  [.declare ⟨96, 13⟩ "seen" (.bool ⟨96, 20⟩ false), seenLoop 97,
    .branch ⟨102, 9⟩ (.unary ⟨102, 13⟩ .not (.name ⟨102, 14⟩ "seen")) [addLike 103 13] none]

/-- The function that keeps the first of equal parts. -/
def uniqueList : Function :=
  ⟨"uniqueList", ["items"],
    emptyLike 90 ++
      [countLoop 95 5 "i" 11 (sizeOf 95 25 "items") addUnseen, returnResult 110],
    ⟨89, 5⟩⟩

/-- Returns if the part at `i` equals the target. -/
def returnIfEqual : List Stmt :=
  [.branch ⟨115, 9⟩
    (.binary ⟨115, 22⟩ .equal (partAt "items" 115 13) (.name ⟨115, 25⟩ "target"))
    [.return ⟨116, 13⟩ (some (.bool ⟨116, 20⟩ true))] none]

/-- The function that looks whether some part equals a value. -/
def contains : Function :=
  ⟨"contains", ["items", "target"],
    [countLoop 114 5 "i" 11 (sizeOf 114 25 "items") returnIfEqual,
      .return ⟨119, 5⟩ (some (.bool ⟨119, 12⟩ false))],
    ⟨113, 5⟩⟩

/-- The part at `i` is added if the function `f` gives a truthy value for it. -/
def addIfTruthy : List Stmt :=
  [.branch ⟨218, 9⟩ (.call ⟨218, 13⟩ "f" [partAt "items" 218 15])
    [addPart false "result" "items" 219 13] none]

/-- The function that keeps the items for which another function gives a truthy value. -/
def filter : Function :=
  ⟨"filter", ["items", "f"],
    [.declare ⟨216, 9⟩ "result" (emptyOf false 216 18),
      countLoop 217 5 "i" 11 (sizeOf 217 25 "items") addIfTruthy, returnResult 222],
    ⟨215, 5⟩⟩

/-! ## Blanks at either end -/

/-- An index, `word`, is moved on if there is a blank at it; the other end is where it stops. -/
def stripStep (line : Nat) (word : String) (before : BinaryOp) (stop : String) (step : BinaryOp) :
    List Stmt :=
  [setTo (line + 1) 9 "moving" (.bool ⟨line + 1, 18⟩ false),
    .branch ⟨line + 2, 9⟩
      (.binary ⟨line + 2, word.length + 14⟩ before (.name ⟨line + 2, 13⟩ word)
        (.name ⟨line + 2, word.length + 17⟩ stop))
      [.branch ⟨line + 3, 13⟩
        (.binary ⟨line + 3, word.length + 34⟩ .lessEqual
          (.call ⟨line + 3, 17⟩ "toNumber"
            [itemAt "text" (line + 3) 26 (.name ⟨line + 3, 31⟩ word)])
          (.number ⟨line + 3, word.length + 37⟩ (ofNat 32)))
        [setTo (line + 4) 17 word
            (.binary ⟨line + 4, 2 * word.length + 21⟩ step
              (.name ⟨line + 4, word.length + 20⟩ word)
              (.number ⟨line + 4, 2 * word.length + 23⟩ (ofNat 1))),
          setTo (line + 5) 17 "moving" (.bool ⟨line + 5, 26⟩ true)]
        none]
      none]

/-- The loop that moves an index on while there is a blank at it. -/
def stripLoop (line : Nat) (word : String) (before : BinaryOp) (stop : String) (step : BinaryOp) :
    Stmt :=
  .loop ⟨line, 5⟩ .nothing (some (.name ⟨line, 12⟩ "moving")) none
    (stripStep line word before stop step)

/-- `i <= end`. -/
def inMiddle : Expr :=
  .binary ⟨180, 27⟩ .lessEqual (.name ⟨180, 25⟩ "i") (.name ⟨180, 30⟩ "end")

/-- `i = i + 1`. -/
def nextInMiddle : Expr :=
  .assign ⟨180, 35⟩ "i" (plusOne 180 39 "i")

/-- The loop that adds what is left of the text to the result. -/
def middleLoop : Stmt :=
  .loop ⟨180, 5⟩ (.declare ⟨180, 14⟩ "i" (.name ⟨180, 18⟩ "start")) (some inMiddle)
    (some nextInMiddle) [addPart true "result" "text" 181 9]

/-- The function that takes the blanks off either end of a text. -/
def trim : Function :=
  ⟨"trim", ["text"],
    [.declare ⟨157, 9⟩ "start" (.number ⟨157, 17⟩ (ofNat 0)),
      .declare ⟨158, 9⟩ "end"
        (.binary ⟨158, 26⟩ .subtract (sizeOf 158 15 "text") (.number ⟨158, 28⟩ (ofNat 1))),
      .declare ⟨159, 9⟩ "moving" (.bool ⟨159, 18⟩ true),
      stripLoop 160 "start" .lessEqual "end" .add,
      setTo 169 5 "moving" (.bool ⟨169, 14⟩ true),
      stripLoop 170 "end" .greaterEqual "start" .subtract,
      .declare ⟨179, 9⟩ "result" (emptyOf true 179 18), middleLoop, returnResult 183],
    ⟨156, 5⟩⟩

/-! ## Reversing -/

/-- The loop that adds the parts to the result from the last one on: the counter goes down to zero,
and stands at `-1` when it is over. -/
def reverseLoop : Stmt :=
  .loop ⟨78, 5⟩
    (.declare ⟨78, 14⟩ "i"
      (.binary ⟨78, 30⟩ .subtract (sizeOf 78 18 "items") (.number ⟨78, 32⟩ (ofNat 1))))
    (some (.binary ⟨78, 37⟩ .greaterEqual (.name ⟨78, 35⟩ "i") (.number ⟨78, 40⟩ (ofNat 0))))
    (some (.assign ⟨78, 43⟩ "i"
      (.binary ⟨78, 49⟩ .subtract (.name ⟨78, 47⟩ "i") (.number ⟨78, 51⟩ (ofNat 1)))))
    [addLike 79 9]

/-- The function that makes a reversed copy of a text or a list. -/
def reverseList : Function :=
  ⟨"reverseList", ["items"], emptyLike 73 ++ [reverseLoop, returnResult 85], ⟨72, 5⟩⟩

/-! ## The module -/

/-- The functions given here but `reverseList`, which make up a table of their own (`table`). -/
def functions : List Function :=
  [sort, sortString, uniqueList, contains, trim, stringToList, listToString, filter]

set_option maxRecDepth 100000 in
/-- The module that comes with the language has all functions given here. -/
theorem standard_functions : ∃ program, Program.ofText Module.standardText = .ok program ∧
    ∀ f ∈ reverseList :: functions, program.functions.find? f.name = some f := by
  apply Module.standard_of_chars 8000
  · unfold Module.standardLines
    repeat apply Module.lineChars_cons
    exact List.flatMap_nil
  · decide +kernel
  · decide +kernel

theorem standard_sort : ∃ program, Program.ofText Module.standardText = .ok program ∧
    program.functions.find? "sort" = some sort := by
  obtain ⟨program, read, known⟩ := standard_functions
  exact ⟨program, read, known sort (by simp [functions])⟩

/-- The table has the function `word` of the module that comes with the language, by a name that no
intrinsic has. -/
structure Bundled (t : FunctionTable) (word name : String) : Prop where
  plain : Intrinsic.ofName? name = none
  found : ∃ program f, Program.ofText Module.standardText = .ok program ∧
    program.functions.find? word = some f ∧ t.find? name = some f

theorem Bundled.find? {t : FunctionTable} {name : String} {f : Function}
    (bundled : Bundled t f.name name) (given : f ∈ reverseList :: functions) :
    t.find? name = some f := by
  obtain ⟨program, g, read, own, called⟩ := bundled.found
  obtain ⟨program', read', known⟩ := standard_functions
  obtain rfl : program' = program := Except.ok.inj (read'.symm.trans read)
  obtain rfl : f = g := Option.some.inj ((known f given).symm.trans own)
  exact called

/-- A table has such a function if it has the tree. -/
theorem Bundled.of_find? {t : FunctionTable} {name : String} {f : Function}
    (given : f ∈ reverseList :: functions) (plain : Intrinsic.ofName? name = none)
    (called : t.find? name = some f) : Bundled t f.name name := by
  obtain ⟨program, read, known⟩ := standard_functions
  exact ⟨plain, program, f, read, known f given, called⟩

/-- The table that has the functions of `functions`, each by its own name. -/
def table : FunctionTable :=
  ⟨functions.map fun f => (f.name, f)⟩

theorem bundled_table : ∀ f ∈ functions, Bundled table f.name f.name := by
  have found : ∀ f ∈ functions, Intrinsic.ofName? f.name = none ∧ table.find? f.name = some f := by
    decide +kernel
  exact fun f given =>
    .of_find? (List.mem_cons_of_mem _ given) (found f given).1 (found f given).2

end Script.Library
