import MediaPhases.Proofs.Command.Steps
import MediaPhases.Proofs.Engine.Gates

/-!
# Modifications on record

The steps of a phase say whether they change the file.  The file has been modified as soon as a
step that says so has been run and ended well, whatever comes after it.  It is on record only when
all commands of the phase end well: the first that fails takes along what was noted of the steps
before it, and the phase is recorded as failed, or as skipped, with a file that looks untouched.
-/

namespace MediaPhases

variable {σ : Type} {launch : Launcher σ} {limit : ℕ} {world : σ}

/-! ## One call -/

namespace Call

variable {call : Call} {steps : List ExecStep} {failure : Failure}

/-- A step that changes the file is run and ends well. -/
def Modifies (call : Call) (launch : Launcher σ) (limit : ℕ) (world : σ) : Prop :=
  ∃ before step after, ExecStep.ofOperations call.phase call.operations =
      .ok (before ++ step :: after) ∧ step.modifies = true ∧
    ∃ last, launch.Succeed (call.commands limit (before ++ [step])) world last

/-- A command is the first to fail. -/
def FailsWith (call : Call) (launch : Launcher σ) (limit : ℕ) (world : σ) (failure : Failure) :
    Prop :=
  ∃ steps before command fault last,
    ExecStep.ofOperations call.phase call.operations = .ok steps ∧
      launch.FailsAt (call.commands limit steps) world before command fault last ∧
      failure = .tool command.toolName fault

/-- What a recorded result tells of the commands of a call. -/
structure IsTold (call : Call) (launch : Launcher σ) (limit : ℕ) (world : σ) (mode : ErrorMode)
    (result : PhaseResult) : Prop where
  /-- A modification is told unless a command fails, before it or after it. -/
  modified : result.fileModified = true ↔
    call.Modifies launch limit world ∧ ∀ failure, ¬call.FailsWith launch limit world failure
  /-- The failure is told instead, in one way or the other. -/
  failed : ∀ failure, call.FailsWith launch limit world failure →
    (mode ≠ .skip → result.outcome = .failed ∧ result.error = some failure.message) ∧
    (mode = .skip → result.outcome = .skipped ∧
      result.skipReason = some (.errorMode failure.message))

/-- When all commands end well, any step that changes the file has done so. -/
theorem modifies_iff_of_succeed {last : σ}
    (hsteps : ExecStep.ofOperations call.phase call.operations = .ok steps)
    (hall : launch.Succeed (call.commands limit steps) world last) :
    call.Modifies launch limit world ↔ ∃ step ∈ steps, step.modifies = true := by
  constructor
  · rintro ⟨before, step, after, hsplit, hmodifies, -⟩
    obtain rfl := Except.ok.inj (hsteps.symm.trans hsplit)
    exact ⟨step, List.mem_append_cons_self, hmodifies⟩
  · rintro ⟨step, hstep, hmodifies⟩
    obtain ⟨before, after, rfl⟩ := List.append_of_mem hstep
    rw [List.append_cons, commands_append, Launcher.succeed_append_iff] at hall
    obtain ⟨middle, hbefore, -⟩ := hall
    exact ⟨before, step, after, hsteps, hmodifies, middle, hbefore⟩

theorem not_failsWith_of_succeed {last : σ}
    (hsteps : ExecStep.ofOperations call.phase call.operations = .ok steps)
    (hall : launch.Succeed (call.commands limit steps) world last) :
    ¬call.FailsWith launch limit world failure := by
  rintro ⟨steps', before, command, fault, last', hsteps', hfails, -⟩
  obtain rfl := Except.ok.inj (hsteps.symm.trans hsteps')
  exact hfails.not_succeed hall

theorem FailsWith.execute_eq (h : call.FailsWith launch limit world failure)
    (hwet : call.context.dryRun = false) :
    ((commandExecutor launch limit).execute call world).1 = .error failure := by
  obtain ⟨steps, before, command, fault, last, hsteps, hfails, rfl⟩ := h
  rw [execute_of_failsAt hsteps hwet hfails]

/-- The executor tells of a modification when there is one and no command fails. -/
theorem exists_execute_modified_iff (hwet : call.context.dryRun = false) :
    (∃ output, ((commandExecutor launch limit).execute call world).1 = .ok output ∧
        output.fileModified = true) ↔
      call.Modifies launch limit world ∧ ∀ failure, ¬call.FailsWith launch limit world failure := by
  rcases hsteps : ExecStep.ofOperations call.phase call.operations with failure | steps
  · -- Steps that cannot be read are not run.
    rw [execute_of_refused hsteps]
    constructor
    · rintro ⟨output, houtput, -⟩
      cases houtput
    · rintro ⟨⟨before, step, after, hsplit, -⟩, -⟩
      rw [hsteps] at hsplit
      cases hsplit
  · rcases launch.succeed_or_failsAt (call.commands limit steps) world with
      ⟨last, hall⟩ | ⟨before, command, fault, last, hfails⟩
    · -- All commands end well, and the executor tells what the steps say.
      have hnone : ∀ failure, ¬call.FailsWith launch limit world failure := fun _ =>
        not_failsWith_of_succeed hsteps hall
      rw [execute_of_succeed hsteps hwet hall, and_iff_left hnone,
        modifies_iff_of_succeed hsteps hall]
      simp [fileModified_report, hwet]
    · -- A command fails, which is all that the executor tells.
      have hfailed : call.FailsWith launch limit world (.tool command.toolName fault) :=
        ⟨steps, before, command, fault, last, hsteps, hfails, rfl⟩
      rw [execute_of_failsAt hsteps hwet hfails]
      constructor
      · rintro ⟨output, houtput, -⟩
        cases houtput
      · rintro ⟨-, hnone⟩
        exact absurd hfailed (hnone _)

end Call

/-! ## Its result -/

/-- What is recorded of a call is what it is settled with. -/
theorem Call.isTold_settle {call : Call} (hwet : call.context.dryRun = false) (mode : ErrorMode)
    (phase : Phase) :
    call.IsTold launch limit world mode
      (Runner.settle mode phase ((commandExecutor launch limit).execute call world).1).1 := by
  constructor
  case modified => rw [Runner.settle_modified_iff, exists_execute_modified_iff hwet]
  case failed =>
    intro failure hfails
    rw [hfails.execute_eq hwet]
    cases mode <;> simp [Runner.settle, Runner.skipped]

/-! ## Runs -/

namespace Runner

variable {p : ValidatedPolicy} {r : Runner} {context : FileContext}

/-- A file is recorded as modified only in phases that were handed to the executor.  For such a
phase it is so exactly when a step that changes the file ended well and no command of the phase
failed; if one did, its failure is all that is recorded. -/
theorem isTold_of_called
    (hr : r.IsOf p) (launch : Launcher σ) (limit : ℕ) (hwet : context.dryRun = false) (world : σ) :
    let e := commandExecutor launch limit
    let run := r.runFile e context world
    let final := run.result context.path
    (∀ result ∈ final.phaseResults, result.fileModified = true →
      result.phase ∈ run.calls.map (·.phase)) ∧
    ∀ earlier call later, run.calls = earlier ++ call :: later →
      ∃ phase ∈ p.phases, call = phase.call context ∧
        ∃ result, final.phase? phase.name = some result ∧
          call.IsTold launch limit (e.worldAfter earlier world) (p.errorModeOf phase) result := by
  intro e run final
  obtain rfl := hr.policy_eq
  obtain ⟨turns, h, -⟩ := exists_account hr.nodup_names e context world
  constructor
  · intro result hresult hmodified
    have hresults : final.phaseResults = turns.map (·.result r.policy) := h.results
    rw [hresults] at hresult
    obtain ⟨turn, hturn, rfl⟩ := List.mem_map.mp hresult
    obtain ⟨output, hverdict, -⟩ := Turn.result_modified_iff.mp hmodified
    have hopen : turn.reason? = none := Turn.reason?_eq_none_iff.mpr ⟨_, hverdict⟩
    rw [Turn.result_phase, h.mem_calls_iff hr (h.mem_phases hr hturn)]
    exact Turn.mem_called.mpr ⟨turn, hturn, hopen, rfl⟩
  · intro earlier call later hcalls
    have hexchanges : e.exchanges run.calls world = e.exchanges earlier world ++
        (call, (e.execute call (e.worldAfter earlier world)).1) ::
          e.exchanges later (e.execute call (e.worldAfter earlier world)).2 := by
      rw [hcalls, Executor.exchanges_append, Executor.exchanges]
    obtain ⟨before, turn, after, hturns, -, hexchange⟩ := h.exists_turn_of_exchange hexchanges
    obtain ⟨hverdict, rfl⟩ := Turn.exchange?_eq_some_iff.mp hexchange
    have hturn : turn ∈ turns := by
      rw [hturns]
      exact List.mem_append_cons_self
    have hget := h.get?_of_mem_turns hturn
    rw [← h.phase?_result] at hget
    refine ⟨turn.phase, h.mem_phases hr hturn, rfl, _, hget, ?_⟩
    rw [Turn.result, hverdict]
    exact Call.isTold_settle hwet _ _

end Runner

/-! ## A modification that is not on record -/

/-- A command that changes the file. -/
def Value.changing : Value :=
  .table [("command", .text "true"), ("modifies", .bool true)]

/-- A phase that changes the file. -/
def Phase.opening : Phase where
  name := "open"
  operations := ⟨[("exec", .list [.changing])]⟩

/-- A phase that changes the file and then runs another command. -/
def Phase.marking : Phase where
  name := "mark"
  operations := ⟨[("exec", .list [.changing, .table [("command", .text "false")]])]⟩

/-- Both phases, without conditions. -/
def ValidatedPolicy.marking : ValidatedPolicy where
  phases := [.opening, .marking]
  graph := DependencyGraph.ofPhases [.opening, .marking]
  errorMode := .proceed
  graph_eq := by cbv

/-- Only the command `true` ends well. -/
def Launcher.onlyTrue : Launcher Unit := fun command world =>
  (if command.program = "true" then .ok {} else .error (.ended (.exited 1) ""), world)

/-- The first phase is on record with its modification and the second with its failure. -/
theorem Runner.open_modified_mark_failed :
    let context : FileContext := { path := "film.mkv", media := {} }
    let run := Runner.runFile { policy := .marking } (commandExecutor .onlyTrue 0) context ()
    let final := run.result context.path
    (∃ result, final.phase? "open" = some result ∧ result.fileModified = true) ∧
      ∃ result, final.phase? "mark" = some result ∧ result.outcome = .failed ∧
        result.error = some (Failure.tool "false" (.ended (.exited 1) "")).message := by
  intro context run final
  have hwet : context.dryRun = false := rfl
  have hrunner : Runner.IsOf .marking { policy := .marking } := .all
  obtain ⟨-, htold⟩ := Runner.isTold_of_called hrunner .onlyTrue 0 hwet ()
  let opened := Phase.opening.call context
  let marked := Phase.marking.call context
  have hcalls : run.calls = [opened, marked] := by rfl
  constructor
  · obtain ⟨phase, -, hcall, result, hresult, hopened⟩ := htold [] opened [marked] hcalls
    have hname : "open" = phase.name := congrArg Call.phase hcall
    have hsteps : ExecStep.ofOperations opened.phase opened.operations =
        .ok [⟨"true", [], true⟩] := by rfl
    have hall : Launcher.onlyTrue.Succeed (opened.commands 0 [⟨"true", [], true⟩]) () () :=
      .cons rfl .nil
    rw [← hname] at hresult
    refine ⟨result, hresult, hopened.modified.mpr ⟨?_, ?_⟩⟩
    · exact (Call.modifies_iff_of_succeed hsteps hall).mpr ⟨_, List.mem_cons_self, rfl⟩
    · exact fun _ => Call.not_failsWith_of_succeed hsteps hall
  · obtain ⟨phase, hphase, hcall, result, hresult, hmarked⟩ := htold [opened] marked [] hcalls
    have hname : "mark" = phase.name := congrArg Call.phase hcall
    have hproceeds : ∀ phase ∈ ValidatedPolicy.marking.phases,
        ValidatedPolicy.marking.errorModeOf phase ≠ .skip := by
      decide
    have hfails : marked.FailsWith .onlyTrue 0 () (.tool "false" (.ended (.exited 1) "")) := by
      refine ⟨[⟨"true", [], true⟩, ⟨"false", [], false⟩], [⟨"true", [], 0⟩], ⟨"false", [], 0⟩,
        .ended (.exited 1) "", (), rfl, ⟨?_, (), .cons rfl .nil, rfl⟩, rfl⟩
      exact List.prefix_rfl
    rw [← hname] at hresult
    exact ⟨result, hresult, (hmarked.failed _ hfails).1 (hproceeds phase hphase)⟩

/-- The second phase changes the file as well, and its result says that it did not. -/
theorem Runner.mark_modifies_unrecorded :
    let context : FileContext := { path := "film.mkv", media := {} }
    let e := commandExecutor .onlyTrue 0
    let run := Runner.runFile { policy := .marking } e context ()
    ∃ earlier call later, run.calls = earlier ++ call :: later ∧
      call.Modifies .onlyTrue 0 (e.worldAfter earlier ()) ∧
      ∃ result, (run.result context.path).phase? call.phase = some result ∧
        result.fileModified = false := by
  intro context e run
  refine ⟨[Phase.opening.call context], Phase.marking.call context, [], rfl, ?_, _, rfl, rfl⟩
  exact ⟨[], ⟨"true", [], true⟩, [⟨"false", [], false⟩], rfl, rfl, (), .cons rfl .nil⟩

end MediaPhases
