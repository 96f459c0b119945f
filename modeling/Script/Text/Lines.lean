/-
# Script.Text.Lines -- how input is cut into lines

A text prepared in advance is cut at its line feeds.  The carriage return of a
line-feed pair goes with it, any other stays in its line, and a last line needs no
line feed (`lines`).

Bytes arriving from outside are cut at their line feeds too (`takeLine`), and every
carriage return and line feed at the end of a line is dropped.  A line whose bytes
are no text is read as the empty one.
-/
namespace Script.Text

set_option autoImplicit false

/-- A line without the carriage return at its end. -/
def dropReturn (line : List Char) : List Char :=
  if line.getLast? = some '\r' then line.dropLast else line

/-- What stands before the first line feed. -/
def firstLine (cs : List Char) : List Char :=
  cs.takeWhile (· ≠ '\n')

/-- What stands after the first line feed. -/
def afterLine (cs : List Char) : List Char :=
  (cs.dropWhile (· ≠ '\n')).drop 1

theorem length_afterLine_lt {cs : List Char} (more : cs ≠ []) :
    (afterLine cs).length < cs.length := by
  have kept := (List.dropWhile_sublist (fun c : Char => decide (c ≠ '\n')) (l := cs)).length_le
  have := List.length_pos_iff.mpr more
  simp only [afterLine, List.length_drop]
  omega

/-- The lines of a text. -/
def lines (cs : List Char) : List (List Char) :=
  if _ : cs = [] then []
  else if '\n' ∈ cs then dropReturn (firstLine cs) :: lines (afterLine cs)
  else [cs]
termination_by cs.length
decreasing_by exact length_afterLine_lt ‹¬ cs = []›

/-- The byte that ends a line. -/
def lineFeed : UInt8 := 10

/-- A line without the carriage returns and line feeds at its end. -/
def trimEnd (cs : List Char) : List Char :=
  (cs.reverse.dropWhile fun c => c = '\r' || c = '\n').reverse

/-- The first line of the bytes, and the bytes after it. -/
def takeLine (bytes : List UInt8) : String × List UInt8 :=
  let line := bytes.takeWhile (· ≠ lineFeed)
  let text := (String.fromUTF8? line.toByteArray).getD ""
  (String.ofList (trimEnd text.toList), (bytes.dropWhile (· ≠ lineFeed)).drop 1)

end Script.Text
