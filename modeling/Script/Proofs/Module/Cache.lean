/-
# Script.Proofs.Module.Cache -- the modules read so far make no difference

A linker that is used again remembers the modules it has read, whether or not the linking that
read them went on to fail.  `Tally` says what it remembers in terms of the requests made to the
provider: the readable ones, each once.  Every linking keeps it, and comes to what `enterAll`
makes of the sources alone.

To see the requests the provider is run in a monad that writes them down (`recorded`).  The main
statement is `cache_transparent`.
-/
import Script.Proofs.Module.Linker

namespace Script.Module

set_option autoImplicit false

/-- The source of the module is known and can be read. -/
def readable (sources : String → Option Source) (module : String) : Bool :=
  match sources module with
  | some source => (Program.ofText source.code).isOk
  | none => false

/-- The sources as a provider that writes down what it is asked for. -/
def recorded (sources : String → Option Source) : Provider (StateM (List String)) :=
  fun module => do
    modify (· ++ [module])
    return sources module

/-- A table, and the imports to enter in it. -/
structure Request where
  functions : FunctionTable
  imports : List Import

/-- Linking comes to the import: those before it can be entered. -/
def Request.Reaches (sources : String → Option Source) (request : Request) (decl : Import) : Prop :=
  ∃ before after, request.imports = before ++ decl :: after ∧
    Satisfiable sources request.functions before

namespace Linker

/-- The linker after some requests, of which any may have failed. -/
def after {m : Type → Type} [Monad m] (provider : Provider m) (l : Linker)
    (requests : List Request) : m Linker :=
  requests.foldlM
    (fun l request => return (← l.link provider request.functions request.imports).linker) l

/-- Enters imports straight from the sources, as far as possible. -/
def enterAll (sources : String → Option Source) (functions : FunctionTable) :
    List Import → Except Stop Unit × FunctionTable
  | [] => (.ok (), functions)
  | decl :: rest =>
      match enterFrom sources decl functions with
      | .error stop => (.error stop, functions)
      | .ok functions => enterAll sources functions rest

/-- What a linker remembers when its provider was asked for the modules of `log`. -/
structure Tally (sources : String → Option Source) (l : Linker) (log : List String) : Prop where
  faithful : l.Faithful sources
  names : l.loaded.map (·.1) = log.filter (readable sources)
  once : (log.filter (readable sources)).Nodup

variable {sources : String → Option Source} {functions : FunctionTable} {l : Linker}
  {log : List String} {decl other : Import}

/-! ## What is remembered -/

theorem tally_empty (sources : String → Option Source) : Tally sources empty [] :=
  ⟨faithful_empty sources, rfl, List.nodup_nil⟩

theorem Tally.lookup_eq_none_iff (tally : Tally sources l log) {module : String} :
    l.loaded.lookup module = none ↔ ¬ (module ∈ log ∧ readable sources module = true) := by
  have names : module ∈ l.loaded.map (·.1) ↔ module ∈ log ∧ readable sources module = true := by
    rw [tally.names, List.mem_filter]
  rw [← names, List.lookup_eq_none_iff]
  simp only [bne_iff_ne, List.mem_map, not_exists, not_and, ne_comm]

theorem Tally.remembered_iff (tally : Tally sources l log) (module : String) :
    (l.loaded.lookup module).isSome = true ↔ module ∈ log ∧ readable sources module = true := by
  rw [← not_iff_not, Bool.not_eq_true, Option.isSome_eq_false_iff, Option.isNone_iff_eq_none]
  exact tally.lookup_eq_none_iff

/-- What is counted are the modules that were asked for and can be read. -/
theorem Tally.count_eq (tally : Tally sources l log) :
    l.count = {module | module ∈ log ∧ readable sources module = true}.ncard := by
  have listed : {module | module ∈ log ∧ readable sources module = true} =
      ((log.filter (readable sources)).toFinset : Set String) := by
    ext module
    simp
  rw [listed, Set.ncard_coe_finset, List.toFinset_card_of_nodup tally.once, ← tally.names,
    List.length_map, count]

theorem Tally.asked_once (tally : Tally sources l log) {module : String} (asked : module ∈ log)
    (isReadable : readable sources module = true) : log.count module = 1 := by
  rw [← List.count_filter isReadable]
  exact List.count_eq_one_of_mem tally.once (List.mem_filter.2 ⟨asked, isReadable⟩)

theorem isOk_receive (sources : String → Option Source) (decl : Import) :
    (receive decl (sources decl.module)).isOk = readable sources decl.module := by
  unfold readable
  cases sources decl.module with
  | none => rfl
  | some source =>
      simp only [receive, read]
      cases Program.ofText source.code <;> rfl

/-- A module that is asked for is remembered if it can be read. -/
theorem Tally.remember (tally : Tally sources l log)
    (unknown : l.loaded.lookup decl.module = none) :
    Tally sources (l.remember decl.module (receive decl (sources decl.module)))
      (log ++ [decl.module]) := by
  have faithful := tally.faithful.remember decl
  have isOk := isOk_receive sources decl
  rw [tally.lookup_eq_none_iff] at unknown
  cases answer : receive decl (sources decl.module) with
  | error stop =>
      rw [answer] at isOk faithful
      have unreadable : readable sources decl.module = false := isOk.symm
      have same : (log ++ [decl.module]).filter (readable sources) =
          log.filter (readable sources) := by
        simp [unreadable]
      exact ⟨faithful, same ▸ tally.names, same ▸ tally.once⟩
  | ok loaded =>
      rw [answer] at isOk faithful
      have isReadable : readable sources decl.module = true := isOk.symm
      have more : (log ++ [decl.module]).filter (readable sources) =
          log.filter (readable sources) ++ [decl.module] := by
        simp [isReadable]
      refine ⟨faithful, ?_, ?_⟩
      · rw [more, ← tally.names]
        simp [Linker.remember]
      · rw [more, List.nodup_append_comm, List.singleton_append, List.nodup_cons, List.mem_filter]
        exact ⟨unknown, tally.once⟩

/-- A module is asked for unless it is remembered, and is asked for by then. -/
theorem Tally.load (tally : Tally sources l log) (decl : Import) :
    ∃ l' log', (load (recorded sources) l decl).run log =
        ((receive decl (sources decl.module), l'), log') ∧ Tally sources l' log' ∧
      ∀ module, module ∈ log' ↔ module ∈ log ∨ decl.module = module := by
  unfold Linker.load
  cases known : l.loaded.lookup decl.module with
  | none => exact ⟨_, _, rfl, tally.remember known, by simp [eq_comm]⟩
  | some loaded =>
      obtain ⟨source, found, read⟩ := tally.faithful decl.module loaded known
      refine ⟨l, log, ?_, tally, ?_⟩
      · rw [found, receive, read]
        rfl
      · have asked : decl.module ∈ log := by
          by_contra missing
          have unknown := tally.lookup_eq_none_iff.2 fun both => missing both.1
          rw [known] at unknown
          cases unknown
        intro module
        constructor
        · exact .inl
        · rintro (earlier | rfl)
          · exact earlier
          · exact asked

/-- A module that cannot be read is never remembered: whoever comes to it asks for it again and
fails. -/
theorem Tally.unread (tally : Tally sources l log)
    (unreadable : readable sources decl.module = false) :
    l.loaded.lookup decl.module = none ∧
      ∃ stop, receive decl (sources decl.module) = .error stop ∧
        ∀ functions rest, (l.link (recorded sources) functions (decl :: rest)).run log =
          (⟨.error stop, l, functions⟩, log ++ [decl.module]) := by
  have unknown : l.loaded.lookup decl.module = none :=
    tally.lookup_eq_none_iff.2 fun both => by rw [unreadable] at both; cases both.2
  have broken := isOk_receive sources decl
  rw [unreadable] at broken
  refine ⟨unknown, ?_⟩
  cases answer : receive decl (sources decl.module) with
  | ok loaded =>
      rw [answer] at broken
      cases broken
  | error stop =>
      refine ⟨stop, rfl, fun functions rest => ?_⟩
      have asks : (l.load (recorded sources) decl).run log =
          ((receive decl (sources decl.module),
            l.remember decl.module (receive decl (sources decl.module))),
            log ++ [decl.module]) := by
        rw [Linker.load, unknown]
        rfl
      rw [link, StateT.run_bind, asks, answer]
      rfl

/-! ## What one linking comes to -/

theorem reaches_cons {rest : List Import} :
    Request.Reaches sources ⟨functions, decl :: rest⟩ other ↔
      other = decl ∨ ∃ f, Supplies sources decl f ∧ functions.contains decl.newName = false ∧
        Request.Reaches sources ⟨functions.add decl.newName f, rest⟩ other := by
  constructor
  · rintro ⟨before, later, split, all⟩
    cases before with
    | nil =>
        cases split
        exact .inl rfl
    | cons first before =>
        obtain ⟨rfl, rfl⟩ := List.cons.inj split
        obtain ⟨f, supplied⟩ := all.supplied decl List.mem_cons_self
        have fresh := all.fresh decl List.mem_cons_self
        exact .inr ⟨f, supplied, fresh, before, later, rfl, (satisfiable_cons supplied fresh).1 all⟩
  · rintro (rfl | ⟨f, supplied, fresh, before, later, split, all⟩)
    · exact ⟨[], rest, rfl, satisfiable_nil⟩
    · exact ⟨decl :: before, later, congrArg (decl :: ·) split,
        (satisfiable_cons supplied fresh).2 all⟩

theorem reaches_supplied {rest : List Import} {f : Function} (supplied : Supplies sources decl f)
    (fresh : functions.contains decl.newName = false) :
    Request.Reaches sources ⟨functions, decl :: rest⟩ other ↔
      other = decl ∨ Request.Reaches sources ⟨functions.add decl.newName f, rest⟩ other := by
  refine reaches_cons.trans (or_congr_right ⟨?_, fun reaches => ⟨f, supplied, fresh, reaches⟩⟩)
  rintro ⟨g, supplied', -, reaches⟩
  rwa [supplied'.unique supplied] at reaches

/-- Behind an import that is refused none is come to. -/
theorem reaches_refused {rest : List Import} {stop : Stop}
    (refused : Refused sources (Taken functions [] decl.newName) decl stop) :
    Request.Reaches sources ⟨functions, decl :: rest⟩ other ↔ other = decl := by
  refine reaches_cons.trans (or_iff_left ?_)
  rintro ⟨f, supplied, fresh, -⟩
  have one : Satisfiable sources functions [decl] :=
    (satisfiable_cons supplied fresh).2 satisfiable_nil
  have none : ¬ Satisfiable sources functions ([] ++ decl :: []) := refused.not_satisfiable
  exact none one

/-- Linking without a trace of earlier linkings is entering straight from the sources. -/
theorem Faithful.link_eq : ∀ (imports : List Import) {l : Linker} (functions : FunctionTable),
    l.Faithful sources → ∃ l', link (m := Id) sources l functions imports =
      ⟨(enterAll sources functions imports).1, l', (enterAll sources functions imports).2⟩
  | [], l, _, _ => ⟨l, rfl⟩
  | decl :: rest, l, functions, faithful => by
      obtain ⟨l', faithful', linked⟩ := faithful.link_cons functions decl rest
      rw [linked, enterAll]
      cases enterFrom sources decl functions with
      | error stop => exact ⟨l', rfl⟩
      | ok functions => exact link_eq rest functions faithful'

/-- Linking comes to what the sources make of the imports, and asks for the modules of those it
comes to, as far as it does not remember them. -/
theorem Tally.linked : ∀ (imports : List Import) {l : Linker} {log : List String}
    (functions : FunctionTable), Tally sources l log → ∃ l' log',
      (link (recorded sources) l functions imports).run log =
        (⟨(enterAll sources functions imports).1, l', (enterAll sources functions imports).2⟩,
          log') ∧
      Tally sources l' log' ∧
      ∀ module, module ∈ log' ↔ module ∈ log ∨
        ∃ decl, Request.Reaches sources ⟨functions, imports⟩ decl ∧ decl.module = module
  | [], l, log, functions, tally => by
      refine ⟨l, log, rfl, tally, fun module => ?_⟩
      simp [Request.Reaches]
  | decl :: rest, l, log, functions, tally => by
      obtain ⟨l', log', loaded, tally', asked⟩ := tally.load decl
      have linked : (link (recorded sources) l functions (decl :: rest)).run log =
          (match enterFrom sources decl functions with
            | .error stop => pure (⟨.error stop, l', functions⟩ : Linked)
            | .ok functions => link (recorded sources) l' functions rest).run log' := by
        rw [link, StateT.run_bind, loaded]
        rfl
      rw [linked, enterAll]
      rcases enterFrom_cases sources decl functions with ⟨f, supplied, fresh, entered⟩ |
        ⟨stop, refused, stopped⟩
      · rw [entered]
        obtain ⟨last, log'', ran, tally'', later⟩ :=
          Tally.linked rest (functions.add decl.newName f) tally'
        refine ⟨last, log'', ran, tally'', fun module => ?_⟩
        simp only [later, asked, reaches_supplied supplied fresh, or_assoc, or_and_right, exists_or,
          exists_eq_left]
      · rw [stopped]
        refine ⟨l', log', rfl, tally', fun module => ?_⟩
        simp only [asked, reaches_refused refused, exists_eq_left]

/-! ## What many linkings come to -/

theorem Tally.after (sources : String → Option Source) (requests : List Request) :
    ∃ l log, (after (recorded sources) empty requests).run [] = (l, log) ∧ Tally sources l log ∧
      ∀ module, module ∈ log ↔
        ∃ request ∈ requests, ∃ decl, request.Reaches sources decl ∧ decl.module = module := by
  induction requests using List.reverseRecOn with
  | nil => exact ⟨empty, [], rfl, tally_empty sources, by simp⟩
  | append_singleton requests request ih =>
      obtain ⟨l, log, ran, tally, asked⟩ := ih
      obtain ⟨l', log', linked, tally', later⟩ := tally.linked request.imports request.functions
      refine ⟨l', log', ?_, tally', fun module => ?_⟩
      · have last : (Linker.after (recorded sources) empty (requests ++ [request])).run [] =
            Prod.map Linked.linker id
              ((link (recorded sources) l request.functions request.imports).run log) := by
          rw [Linker.after, List.foldlM_append, StateT.run_bind]
          change (Linker.after (recorded sources) empty requests).run [] >>= _ = _
          rw [ran]
          rfl
        rw [last, linked]
        rfl
      · rw [later, asked]
        simp only [List.mem_append, List.mem_singleton, or_and_right, exists_or, exists_eq_left]

/-- **The modules read so far make no difference.**  After any requests to one linker, of which any
may have failed, each further one has the result and the table that a new linker gives it.  The
linker has then read the modules that can be read among those its provider was asked for, which are
the modules of all the imports that were come to; their number is its count, and for each of them
the provider was asked once.  A module that cannot be read is not remembered: it is asked for again,
and fails every import of it in the way its source does. -/
theorem cache_transparent (sources : String → Option Source) (earlier : List Request)
    (request : Request) :
    let alone : Linked := link (m := Id) sources empty request.functions request.imports
    let further := do
      let l ← after (recorded sources) empty earlier
      l.link (recorded sources) request.functions request.imports
    ∃ l log, further.run [] = (⟨alone.result, l, alone.functions⟩, log) ∧
      (∀ module, module ∈ log ↔
        ∃ r ∈ earlier ++ [request], ∃ decl, r.Reaches sources decl ∧ decl.module = module) ∧
      (∀ module, (l.loaded.lookup module).isSome = true ↔
        module ∈ log ∧ readable sources module = true) ∧
      l.count = {module | module ∈ log ∧ readable sources module = true}.ncard ∧
      (∀ module ∈ log, readable sources module = true → log.count module = 1) ∧
      ∀ decl, readable sources decl.module = false →
        l.loaded.lookup decl.module = none ∧
        ∃ stop, receive decl (sources decl.module) = .error stop ∧
          ∀ functions rest, (l.link (recorded sources) functions (decl :: rest)).run log =
            (⟨.error stop, l, functions⟩, log ++ [decl.module]) := by
  intro alone further
  obtain ⟨old, log, ran, tally, asked⟩ := Tally.after sources earlier
  obtain ⟨l, log', linked, tally', later⟩ := tally.linked request.imports request.functions
  obtain ⟨_, fresh⟩ := (faithful_empty sources).link_eq request.imports request.functions
  refine ⟨l, log', ?_, fun module => ?_, tally'.remembered_iff, tally'.count_eq,
    fun module => tally'.asked_once, fun decl => tally'.unread⟩
  · change (Linker.after (recorded sources) empty earlier >>= _).run [] = _
    rw [StateT.run_bind, ran]
    change (link (recorded sources) old request.functions request.imports).run log = _
    rw [linked, show alone = _ from fresh]
  · rw [later, asked]
    simp only [List.mem_append, List.mem_singleton, or_and_right, exists_or, exists_eq_left]

/-- The first request fails at its second import, after it has read `util`, and the second has a
module that is not there.  The third needs both: only `util` is not asked for again. -/
theorem cache_after_failures :
    let missing : Import := ⟨"nowhere", "f", "f", ⟨1, 16⟩⟩
    let earlier : List Request := [⟨.empty, importedTwice⟩, ⟨.empty, [missing]⟩]
    let imports := importedTwice.take 1 ++ [missing]
    ∃ l functions, (do
        let l ← after (recorded utilities) empty earlier
        l.link (recorded utilities) .empty imports).run [] =
          (⟨.error (.failed ⟨.moduleNotFound "nowhere", ⟨1, 16⟩, []⟩), l, functions⟩,
            ["util", "nowhere", "nowhere"]) ∧
      (l.loaded.lookup "util").isSome = true ∧ ["util", "nowhere", "nowhere"].count "util" = 1 ∧
      l.loaded.lookup "nowhere" = none := by
  intro missing earlier imports
  obtain ⟨l, log, ran, -, remembered, -, once, unread⟩ :=
    cache_transparent utilities earlier ⟨.empty, imports⟩
  have asked : log = ["util", "nowhere", "nowhere"] := by
    refine (congrArg Prod.snd ran).symm.trans ?_
    cbv
  have fails : (link (m := Id) utilities empty .empty imports : Linked).result =
      .error (.failed ⟨.moduleNotFound "nowhere", ⟨1, 16⟩, []⟩) := by cbv
  have isReadable : readable utilities "util" = true := by cbv
  have unreadable : readable utilities missing.module = false := by cbv
  rw [fails, asked] at ran
  rw [asked] at once remembered
  refine ⟨l, _, ran, (remembered "util").2 ⟨by simp, isReadable⟩, ?_, (unread missing unreadable).1⟩
  exact once "util" (by simp) isReadable

end Linker

end Script.Module
