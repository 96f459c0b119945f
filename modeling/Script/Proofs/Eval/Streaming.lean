/-
# Script.Proofs.Eval.Streaming -- input prepared in advance, and input that streams in

A run can be given a text that was cut into lines beforehand, or the bytes of that text, read
while it goes on.  Where the text is `Unpadded` it cannot tell: states that differ only in how
what is left of the input is held are `State.Alike`, every part of the evaluator keeps them so
(`Eval.streaming`), and what a run comes to has no input in it any more.

The main statement is `streamed_as_captured`: reads, runs of a text, jobs and the command line.
-/
import Mathlib
import Script.Command
import Script.Proofs.Eval.Lockstep
import Script.Proofs.Text.Lines

namespace Script

set_option autoImplicit false

namespace Input

/-- The input that streams in as the bytes of a text. -/
def streamed (text : String) : Input :=
  .bytes text.toUTF8.data.toList

/-- The input after so many reads. -/
def after : Nat → Input → Input
  | 0, i => i
  | k + 1, i => after k i.next.2

/-- What is left of one text, cut into lines on the left and as bytes on the right. -/
inductive Alike : Input → Input → Prop
  | text {cs : List Char} (unpadded : Text.Unpadded cs) :
      Alike (.lines ((Text.lines cs).map String.ofList)) (.bytes (Text.encode cs))

theorem alike_ofText {text : String} (unpadded : Text.Unpadded text.toList) :
    (ofText text).Alike (streamed text) := by
  rw [streamed, ← Text.encode_toList]
  exact .text unpadded

/-- The bytes of a text that has not come to its end give its first line. -/
theorem next_encode {cs : List Char} (more : cs ≠ []) :
    (bytes (Text.encode cs)).next =
      (some (String.ofList (Text.trimEnd (Text.firstLine cs))),
        bytes (Text.encode (Text.afterLine cs))) := by
  cases cs with
  | nil => exact absurd rfl more
  | cons c cs =>
      cases unread : Text.encode (c :: cs) with
      | nil => exact absurd unread (Text.encode_cons_ne_nil c cs)
      | cons b rest =>
          rw [next, ← unread, Text.takeLine_encode]
          exact List.cons_ne_nil b rest

/-- Reading a line gives the same on both sides and leaves what is alike again. -/
theorem Alike.next {i j : Input} (alike : i.Alike j) :
    i.next.1 = j.next.1 ∧ i.next.2.Alike j.next.2 := by
  obtain @⟨cs, unpadded⟩ := alike
  by_cases finished : cs = []
  · subst finished
    rw [Text.lines, dif_pos rfl]
    refine ⟨rfl, ?_⟩
    have rest := Alike.text unpadded
    rwa [Text.lines, dif_pos rfl] at rest
  · rw [next_encode finished, Text.lines, dif_neg finished]
    by_cases more : '\n' ∈ cs
    · rw [if_pos more, unpadded.trimEnd_firstLine more]
      exact ⟨rfl, .text (unpadded.afterLine more)⟩
    · rw [if_neg more, unpadded.trimEnd_line more, Text.afterLine_eq_nil more]
      refine ⟨rfl, ?_⟩
      have rest : Text.Unpadded [] := ⟨by simp, by simp⟩
      have ended := Alike.text rest
      rwa [Text.lines, dif_pos rfl] at ended

theorem Alike.after {i j : Input} (alike : i.Alike j) :
    ∀ k, (i.after k).Alike (j.after k) := by
  intro k
  induction k generalizing i j with
  | zero => exact alike
  | succ k ih => exact ih alike.next.2

/-- Lines that were cut in advance are read in order, and none after the last. -/
theorem next_after_lines (k : Nat) :
    ∀ rest : List String, ((lines rest).after k).next.1 = rest[k]? := by
  induction k with
  | zero =>
      intro rest
      cases rest <;> rfl
  | succ k ih =>
      intro rest
      cases rest with
      | nil => exact ih []
      | cons line rest => exact ih rest

end Input

/-- The states differ at most in how what is left of the input is held. -/
inductive State.Alike : State → State → Prop
  | intro {scopes : Scopes} {calls : CallStack} {store : Store} {output : String} {i j : Input}
      (inputs : i.Alike j) :
      Alike ⟨scopes, calls, store, ⟨i, output⟩⟩ ⟨scopes, calls, store, ⟨j, output⟩⟩

/-- The same ending, in states that are alike. -/
inductive Outcome.Alike {α : Type} : Outcome α → Outcome α → Prop
  | done (a : α) {s s' : State} (states : s.Alike s') : Alike (.done a s) (.done a s')
  | failed (failure : Failure) {s s' : State} (states : s.Alike s') :
      Alike (.failed failure s) (.failed failure s')
  | aborted : Alike .aborted .aborted
  | exhausted : Alike .exhausted .exhausted

theorem Outcome.Alike.mapState {α : Type} {o o' : Outcome α} {f : State → State}
    (keeps : ∀ {s s'}, s.Alike s' → (f s).Alike (f s')) (alike : o.Alike o') :
    (o.mapState f).Alike (o'.mapState f) := by
  cases alike with
  | done a states => exact .done a (keeps states)
  | failed failure states => exact .failed failure (keeps states)
  | aborted => exact .aborted
  | exhausted => exact .exhausted

namespace Run

variable {α β : Type}

/-- From states that are alike the computations come to outcomes that are. -/
def Alike (x y : Run α) : Prop :=
  ∀ s s' : State, s.Alike s' → (x s).Alike (y s')

theorem alike_pure (a : α) : (pure a : Run α).Alike (pure a) :=
  fun _ _ states => .done a states

theorem Alike.bind {x y : Run α} {f g : α → Run β} (first : x.Alike y)
    (second : ∀ a, (f a).Alike (g a)) : (x >>= f).Alike (y >>= g) := by
  intro s s' states
  have ended := first s s' states
  change (Run.bind x f s).Alike (Run.bind y g s')
  unfold Run.bind
  generalize x s = o at ended ⊢
  generalize y s' = o' at ended ⊢
  cases ended with
  | done a states => exact second a _ _ states
  | failed failure states => exact .failed failure states
  | aborted => exact .aborted
  | exhausted => exact .exhausted

theorem alike_fail (p : Position) (fault : Fault) :
    (fail p fault : Run α).Alike (fail p fault) := by
  rintro _ _ ⟨inputs⟩
  exact .failed _ (.intro inputs)

theorem alike_attempt (p : Position) (operation : Store → Attempt α) :
    (attempt p operation).Alike (attempt p operation) := by
  rintro _ _ @⟨_, _, store, _, _, _, inputs⟩
  unfold attempt
  dsimp only
  cases operation store with
  | ok a => exact .done a (.intro inputs)
  | error halt =>
      cases halt with
      | fault cause => exact .failed _ (.intro inputs)
      | aborted => exact .aborted
      | endless => exact .exhausted

theorem alike_scopes : scopes.Alike scopes := by
  rintro _ _ ⟨inputs⟩
  exact .done _ (.intro inputs)

theorem alike_truthy (v : Value) : (truthy v).Alike (truthy v) := by
  rintro _ _ ⟨inputs⟩
  exact .done _ (.intro inputs)

theorem alike_make (create : Store → Value × Store) : (make create).Alike (make create) := by
  rintro _ _ ⟨inputs⟩
  exact .done _ (.intro inputs)

theorem alike_write (place : Place) (value : Value) :
    (write place value).Alike (write place value) := by
  rintro _ _ ⟨inputs⟩
  exact .done () (.intro inputs)

theorem alike_writeLine (line : String) : (writeLine line).Alike (writeLine line) := by
  rintro _ _ ⟨inputs⟩
  exact .done () (.intro inputs)

theorem alike_assign (name : String) (value : Value) :
    (assign name value).Alike (assign name value) := by
  rintro _ _ ⟨inputs⟩
  exact .done () (.intro inputs)

theorem alike_readLine : readLine.Alike readLine := by
  rintro _ _ @⟨_, _, _, _, i, j, inputs⟩
  obtain ⟨same, later⟩ := inputs.next
  unfold readLine Console.readLine
  dsimp only
  rw [same]
  exact .done _ (.intro later)

theorem alike_define (p : Position) (name : String) (value : Value) :
    (define p name value).Alike (define p name value) := by
  rintro _ _ @⟨scopes, _, _, _, _, _, inputs⟩
  unfold define
  dsimp only
  cases scopes.define name value with
  | ok scopes => exact .done () (.intro inputs)
  | error fault => exact .failed _ (.intro inputs)

theorem alike_inScope {x y : Run α} (alike : x.Alike y) : (inScope x).Alike (inScope y) := by
  rintro _ _ ⟨inputs⟩
  refine Outcome.Alike.mapState ?_ (alike _ _ (.intro inputs))
  rintro _ _ ⟨inputs⟩
  exact .intro inputs

theorem alike_inCall {frame : Frame} {x y : Run α} (alike : x.Alike y) :
    (inCall frame x).Alike (inCall frame y) := by
  rintro _ _ ⟨inputs⟩
  refine Outcome.Alike.mapState ?_ (alike _ _ (.intro inputs))
  rintro _ _ ⟨inputs⟩
  exact .intro inputs

end Run

namespace Eval

theorem alike_bindParams (p : Position) :
    ∀ (params : List String) (args : List Value),
      (bindParams p params args).Alike (bindParams p params args)
  | [], _ => Run.alike_pure ()
  | _ :: _, [] => Run.alike_pure ()
  | param :: params, value :: values =>
      (Run.alike_define p param value).bind fun _ => alike_bindParams p params values

theorem alike_reference (t : FunctionTable) (p : Position) (word : String) :
    (reference t p word).Alike (reference t p word) := by
  unfold reference
  by_cases known : t.names word = true
  · rw [if_pos known]
    exact Run.alike_pure _
  · rw [if_neg known]
    exact Run.alike_fail p _

/-- Code keeps states alike: only reading a line looks at the input. -/
def streaming (t : FunctionTable) : Lockstep t t where
  code _ _ x y := x.Alike y
  call _ _ x y := x.Alike y
  code_of_call alike := alike
  call_pure a := Run.alike_pure a
  call_bind first second := first.bind second
  code_bind first second := first.bind second
  call_exhausted := fun _ _ _ => .exhausted
  call_fail fault _ := Run.alike_fail _ fault
  call_attempt operation _ := Run.alike_attempt _ operation
  call_make create := Run.alike_make create
  call_writeLine line := Run.alike_writeLine line
  call_readLine := Run.alike_readLine
  callee found := found
  call_refused := by
    intro _ _ p name count fault rest _ refused
    rw [refused]
    exact Run.alike_fail p fault
  call_enter _ _ _ body :=
    Run.alike_inCall ((alike_bindParams _ _ _).bind fun _ => body.bind fun _ => Run.alike_pure _)
  code_reference := fun {_ p} word _ => alike_reference t p word
  code_scopes := Run.alike_scopes
  code_truthy v := Run.alike_truthy v
  code_write place value := Run.alike_write place value
  code_define name value _ := Run.alike_define _ name value
  code_assign name value := Run.alike_assign name value
  code_inScope body := Run.alike_inScope body

/-- Calls from outside keep states alike, whatever the number of steps. -/
theorem alike_apply (t : FunctionTable) (p : Position) (name : String) (args : List Value)
    (steps : Nat) : (apply t p name args steps).Alike (apply t p name args steps) :=
  have calls : Sites.anywhere.calls p args.length := trivial
  ((streaming t).kept steps).apply name calls

end Eval

/-- The input is no part of what a run comes to. -/
theorem Ending.ofOutcome_alike {o o' : Outcome Value} (alike : o.Alike o') :
    Ending.ofOutcome o = Ending.ofOutcome o' := by
  cases alike with
  | done v states =>
      obtain ⟨-⟩ := states
      rfl
  | failed failure states =>
      obtain ⟨-⟩ := states
      rfl
  | aborted => rfl
  | exhausted => rfl

section

variable {m : Type → Type} [Monad m] {text : String}

theorem Eval.runMain_streamed (unpadded : Text.Unpadded text.toList) (functions : FunctionTable) :
    (Eval.runMain functions (.start (.ofText text))).Alike
      (Eval.runMain functions (.start (.streamed text))) :=
  alike_apply functions .start "main" [] limit _ _ (.intro (Input.alike_ofText unpadded))

theorem runText_streamed (unpadded : Text.Unpadded text.toList) (provider : Module.Provider m)
    (source : String) :
    runText provider source (.streamed text) = runText provider source (.ofText text) := by
  unfold runText
  congr 1
  funext linked
  cases linked with
  | error stop => rfl
  | ok functions =>
      exact congrArg pure (Ending.ofOutcome_alike (Eval.runMain_streamed unpadded functions)).symm

/-- The path of a file asks for the text of that file. -/
theorem Job.ofPath_file [LawfulMonad m] {files : Files m} {path source : String}
    (plain : files.isFolder path = pure false)
    (held : files.read path = pure (.ok source.toUTF8)) :
    Job.ofPath files path = pure (.ok
      ⟨some (((Path.parent? path).filter (· ≠ "")).getD "."), some source, some path, true⟩) := by
  have text : files.readText path = pure (.ok source) := by
    have decoded : Files.decode source.toUTF8 = .ok source := by
      rw [Files.decode, String.toUTF8_eq_toByteArray, String.fromUTF8?, dif_pos source.isValidUTF8]
      rfl
    rw [Files.readText, held, pure_bind]
    exact congrArg pure decoded
  rw [Job.ofPath, plain, pure_bind, if_neg Bool.false_ne_true, text, pure_bind]

theorem Job.run_streamed (unpadded : Text.Unpadded text.toList) (job : Job) (files : Files m) :
    job.run files (.streamed text) = job.run files (.ofText text) := by
  unfold Job.run
  congr 1
  funext source
  cases source with
  | error ending => rfl
  | ok source => exact runText_streamed unpadded (job.provider files) source

end

/-- What the command writes of a run: nothing if it stopped dead or did not end, else what the
program wrote, the report and the exit code. -/
theorem Command.ofEnding_cases (label output : String) (ending : Ending) :
    (Command.ofEnding label output ending = none ↔ ending = .aborted ∨ ending = .exhausted) ∧
    (ending ≠ .aborted → ending ≠ .exhausted →
      Command.ofEnding label output ending =
        some ⟨output, ending.report label, if ending.isSuccess then 0 else 1⟩) := by
  cases ending with
  | aborted => exact ⟨by simp [ofEnding], fun lives => absurd rfl lives⟩
  | exhausted => exact ⟨by simp [ofEnding], fun _ ends => absurd rfl ends⟩
  | _ => exact ⟨by simp [ofEnding], fun _ _ => rfl⟩

/-- **A run cannot tell a text that was cut in advance from its bytes.**  In a text without a
carriage return before the end of a line but the one that belongs to it, every read gives the same
line, or none; so every program, however its modules are found, comes to the same value or to the
same failure with the same trace, in the same store, and has written the same.  What the command
line writes while it streams is what a run on the text collects: what the program wrote, and the
report of why it failed, with the exit code that tells whether it did.  Only a run that stops dead
or does not end is not reported. -/
theorem streamed_as_captured {m : Type → Type} [Monad m] [LawfulMonad m] {text : String}
    (unpadded : Text.Unpadded text.toList) :
    (∀ k, ((Input.ofText text).after k).next.1 =
        ((Text.lines text.toList).map String.ofList)[k]? ∧
      ((Input.streamed text).after k).next.1 = ((Input.ofText text).after k).next.1) ∧
    (∀ functions, (Eval.runMain functions (.start (.ofText text))).Alike
      (Eval.runMain functions (.start (.streamed text)))) ∧
    (∀ (provider : Module.Provider m) (source : String),
      runText provider source (.streamed text) = runText provider source (.ofText text)) ∧
    (∀ (job : Job) (files : Files m),
      job.run files (.streamed text) = job.run files (.ofText text)) ∧
    (∀ (files : Files m) (path : String),
      Command.run files (pure (.streamed text)) path = do
        match ← Job.ofPath files path with
        | .error error => pure (some ⟨"", Command.unreadable path error, 1⟩)
        | .ok job => do
            let (ending, output) ← job.run files (.ofText text)
            pure (Command.ofEnding job.entryLabel output ending)) ∧
    ∀ label output ending,
      (Command.ofEnding label output ending = none ↔ ending = .aborted ∨ ending = .exhausted) ∧
      (ending ≠ .aborted → ending ≠ .exhausted →
        Command.ofEnding label output ending =
          some ⟨output, ending.report label, if ending.isSuccess then 0 else 1⟩) := by
  refine ⟨fun k => ⟨?_, ?_⟩, fun functions => ?_, runText_streamed unpadded,
    Job.run_streamed unpadded, fun files path => ?_, Command.ofEnding_cases⟩
  · exact Input.next_after_lines k _
  · exact ((Input.alike_ofText unpadded).after k).next.1.symm
  · exact Eval.runMain_streamed unpadded functions
  · unfold Command.run
    congr 1
    funext found
    cases found with
    | error error => rfl
    | ok job =>
        dsimp only
        rw [pure_bind, job.run_streamed unpadded files]

/-- A program that writes a line that it reads, and returns the next. -/
def echoing : String :=
  "fun main() \x7b println(readln()) return readln() \x7d"

/-- A program that writes such a line, and then fails. -/
def failing : String :=
  "fun main() \x7b println(readln()) return gone() \x7d"

/-- The two in files. -/
def echoFiles : Files Id where
  read path :=
    if path = "echo.ll" then .ok echoing.toUTF8
    else if path = "fail.ll" then .ok failing.toUTF8
    else .error .notFound
  isFolder _ := false

section

variable (provider : Module.Provider Id)

theorem echoing_run : runText provider echoing (.ofText "one\r\n\nt\rwo") =
    (.value (.string "") .empty, "one\n") := by
  cbv

theorem failing_run : runText provider failing (.ofText "one\r\n\nt\rwo") =
    (.failed ⟨.undefinedFunction "gone", ⟨1, 39⟩, [⟨"main", .start⟩]⟩, "one\n") := by
  cbv

end

/-- A line of each kind: with a pair at its end, empty, and with a return inside but no line feed.
One run writes the first and returns the second, another writes the first and fails. -/
theorem streamed_three_lines :
    let text := "one\r\n\nt\rwo"
    Text.Unpadded text.toList ∧
      (∀ k, ((Input.streamed text).after k).next.1 = ["one", "", "t\rwo"][k]?) ∧
      (runText .none echoing (.streamed text) : Id (Ending × String)) =
        (.value (.string "") .empty, "one\n") ∧
      (Command.run echoFiles (pure (.streamed text)) "echo.ll" : Id (Option Report)) =
        some ⟨"one\n", "", 0⟩ ∧
      (Command.run echoFiles (pure (.streamed text)) "fail.ll" : Id (Option Report)) =
        some ⟨"one\n",
          "Script error in fail.ll: Undefined function gone at 1:39\nScript stack:\n  at main (1:1)\n",
          1⟩ := by
  intro text
  have characters : text.toList = ['o', 'n', 'e', '\r', '\n', '\n', 't', '\r', 'w', 'o'] := by
    simp [text]
  have unpadded : Text.Unpadded text.toList := by
    rw [characters]
    exact ⟨by decide, by decide⟩
  have cut : (Text.lines text.toList).map String.ofList = ["one", "", "t\rwo"] := by
    rw [characters]
    cbv
  obtain ⟨reads, -, runs, -, commands, -⟩ := streamed_as_captured (m := Id) unpadded
  refine ⟨unpadded, fun k => ?_, (runs .none echoing).trans (echoing_run .none), ?_, ?_⟩
  · rw [(reads k).2, (reads k).1, cut]
  · have held : echoFiles.read "echo.ll" = .ok echoing.toUTF8 := rfl
    rw [commands echoFiles "echo.ll", Job.ofPath_file (m := Id) rfl held]
    exact congrArg (fun run => Command.ofEnding "echo.ll" run.2 run.1) (echoing_run _)
  · have held : echoFiles.read "fail.ll" = .ok failing.toUTF8 := rfl
    rw [commands echoFiles "fail.ll", Job.ofPath_file (m := Id) rfl held]
    refine (congrArg (fun run => Command.ofEnding "fail.ll" run.2 run.1) (failing_run _)).trans ?_
    decide +kernel

end Script
