import MediaPhases.Proofs.Engine.Selection
import MediaPhases.Proofs.Outcome.Tracker

/-!
# The turns of a run

A run is told by its turns: which phase came, and whether it was skipped for a reason or handed to
the executor, and then with what answer.  The results, the calls and their answers, the progress
and the halt of a run all follow from its turns, and each decision to skip follows from the
results of the turns before it.
-/

namespace MediaPhases

variable {σ : Type}

/-! ## What an executor answers -/

namespace Executor

/-- The calls that are made in turn, each with its answer. -/
def exchanges (e : Executor σ) : List Call → σ → List (Call × Except Failure Output)
  | [], _ => []
  | call :: rest, world =>
    (call, (e.execute call world).1) :: e.exchanges rest (e.execute call world).2

/-- The state of the world after calls. -/
def worldAfter (e : Executor σ) : List Call → σ → σ
  | [], world => world
  | call :: rest, world => e.worldAfter rest (e.execute call world).2

variable {e : Executor σ}

theorem exchanges_append (calls more : List Call) (world : σ) :
    e.exchanges (calls ++ more) world =
      e.exchanges calls world ++ e.exchanges more (e.worldAfter calls world) := by
  induction calls generalizing world with
  | nil => rfl
  | cons call rest ih =>
      rw [List.cons_append, exchanges, ih, exchanges, worldAfter, List.cons_append]

theorem worldAfter_append (calls more : List Call) (world : σ) :
    e.worldAfter (calls ++ more) world = e.worldAfter more (e.worldAfter calls world) := by
  induction calls generalizing world with
  | nil => rfl
  | cons call rest ih => rw [List.cons_append, worldAfter, ih, worldAfter]

theorem map_fst_exchanges (calls : List Call) (world : σ) :
    (e.exchanges calls world).map Prod.fst = calls := by
  induction calls generalizing world with
  | nil => rfl
  | cons call rest ih => rw [exchanges, List.map_cons, ih]

end Executor

/-! ## Turns -/

/-- What became of a phase when its turn came. -/
inductive Verdict where
  | skipped (reason : SkipReason)
  | answered (answer : Except Failure Output)

/-- The turn of a phase. -/
structure Turn where
  phase : Phase
  verdict : Verdict

/-- What an executor is asked to do for a phase. -/
def Phase.call (phase : Phase) (context : FileContext) : Call :=
  ⟨phase.name, phase.operations, context⟩

namespace Turn

/-- Why the phase was not handed to the executor. -/
def reason? (turn : Turn) : Option SkipReason :=
  match turn.verdict with
  | .skipped reason => some reason
  | .answered _ => none

/-- The phases that were handed to the executor. -/
def called (turns : List Turn) : List Phase :=
  (turns.filter (·.reason?.isNone)).map (·.phase)

/-- The result that is recorded. -/
def result (p : ValidatedPolicy) (turn : Turn) : PhaseResult :=
  match turn.verdict with
  | .skipped reason => Runner.skipped turn.phase reason
  | .answered answer => (Runner.settle (p.errorModeOf turn.phase) turn.phase answer).1

/-- The tracker of a run after turns. -/
def trackerAfter (p : ValidatedPolicy) (turns : List Turn) : Tracker :=
  Tracker.after (turns.map (·.result p))

/-- The failure with which the turn ends the run. -/
def halt (p : ValidatedPolicy) (turn : Turn) : Option Halt :=
  match turn.verdict with
  | .skipped _ => none
  | .answered answer => (Runner.settle (p.errorModeOf turn.phase) turn.phase answer).2

/-- The call of the executor, with its answer. -/
def exchange? (context : FileContext) (turn : Turn) : Option (Call × Except Failure Output) :=
  match turn.verdict with
  | .skipped _ => none
  | .answered answer => some (turn.phase.call context, answer)

/-- The call of the executor. -/
def call? (context : FileContext) (turn : Turn) : Option Call :=
  (turn.exchange? context).map Prod.fst

end Turn

/-- The turn of a phase that comes next in a run. -/
def Runner.turnOf (p : ValidatedPolicy) (e : Executor σ) (context : FileContext) (phase : Phase)
    (run : FileRun σ) : Turn where
  phase := phase
  verdict :=
    match skipReason? p context run.tracker phase with
    | some reason => .skipped reason
    | none => .answered (e.execute (phase.call context) run.world).1

theorem Runner.settle_phase (mode : ErrorMode) (phase : Phase)
    (answer : Except Failure Output) : (settle mode phase answer).1.phase = phase.name := by
  cases answer with
  | ok output => rfl
  | error failure => cases mode <;> rfl

theorem Runner.settle_isFinal (mode : ErrorMode) (phase : Phase)
    (answer : Except Failure Output) : (settle mode phase answer).1.outcome.isFinal = true := by
  cases answer with
  | ok output => rfl
  | error failure => cases mode <;> rfl

/-- A phase completes exactly when the executor has carried out its operations. -/
theorem Runner.settle_completed_iff {mode : ErrorMode} {phase : Phase}
    {answer : Except Failure Output} :
    (settle mode phase answer).1.outcome = .completed ↔ ∃ output, answer = .ok output := by
  cases answer with
  | ok output => simp [settle]
  | error failure => cases mode <;> simp [settle, skipped]

/-- The file counts as modified when the executor has carried out the operations and says so. -/
theorem Runner.settle_modified_iff {mode : ErrorMode} {phase : Phase}
    {answer : Except Failure Output} :
    (settle mode phase answer).1.fileModified = true ↔
      ∃ output, answer = .ok output ∧ output.fileModified = true := by
  cases answer with
  | ok output => simp [settle]
  | error failure => cases mode <;> simp [settle, skipped]

namespace Turn

variable {p : ValidatedPolicy} {turn : Turn}

@[simp] theorem result_phase : (turn.result p).phase = turn.phase.name := by
  rw [result]
  split
  · rfl
  · exact Runner.settle_phase _ _ _

theorem result_isFinal : (turn.result p).outcome.isFinal = true := by
  rw [result]
  split
  · rfl
  · exact Runner.settle_isFinal _ _ _

theorem inStep_trackerAfter (turns : List Turn) : (trackerAfter p turns).InStep :=
  Tracker.inStep_after _

theorem trackerAfter_concat (turns : List Turn) (turn : Turn) :
    trackerAfter p (turns ++ [turn]) = (trackerAfter p turns).recorded (turn.result p) := by
  rw [trackerAfter, List.map_append]
  exact Tracker.after_concat _ _

/-- After turns the first result of a phase is found. -/
theorem get?_trackerAfter (turns : List Turn) (name : String) :
    (trackerAfter p turns).get? name =
      (turns.map (·.result p)).find? (·.phase == name) := by
  refine Tracker.get?_after (fun result hresult => ?_) name
  obtain ⟨turn, -, rfl⟩ := List.mem_map.mp hresult
  exact result_isFinal

theorem get?_trackerAfter_eq_none_iff {turns : List Turn} {name : String} :
    (trackerAfter p turns).get? name = none ↔ name ∉ turns.map (·.phase.name) := by
  rw [get?_trackerAfter, List.find?_eq_none]
  simp

/-- The result found for a phase is that of a turn of it. -/
theorem exists_turn_of_get? {turns : List Turn} {name : String} {result : PhaseResult}
    (h : (trackerAfter p turns).get? name = some result) :
    ∃ turn ∈ turns, turn.phase.name = name ∧ turn.result p = result := by
  have hname := (inStep_trackerAfter turns).phase_of_get? h
  rw [get?_trackerAfter] at h
  obtain ⟨turn, hturn, rfl⟩ := List.mem_map.mp (List.mem_of_find?_eq_some h)
  rw [result_phase] at hname
  exact ⟨turn, hturn, hname, rfl⟩

theorem result_completed_iff :
    (turn.result p).outcome = .completed ↔ ∃ output, turn.verdict = .answered (.ok output) := by
  rw [result]
  split
  · rename_i reason hverdict
    simp [hverdict, Runner.skipped]
  · rename_i answer hverdict
    simp [hverdict, Runner.settle_completed_iff]

theorem result_modified_iff :
    (turn.result p).fileModified = true ↔
      ∃ output, turn.verdict = .answered (.ok output) ∧ output.fileModified = true := by
  rw [result]
  split
  · rename_i reason hverdict
    simp [hverdict, Runner.skipped]
  · rename_i answer hverdict
    simp [hverdict, Runner.settle_modified_iff]

theorem exchange?_eq_some_iff
    {context : FileContext} {call : Call} {answer : Except Failure Output} :
    turn.exchange? context = some (call, answer) ↔
      turn.verdict = .answered answer ∧ call = turn.phase.call context := by
  rw [exchange?]
  split
  · rename_i reason hverdict
    simp [hverdict]
  · rename_i other hverdict
    simp only [hverdict, Option.some.injEq, Prod.mk.injEq, Verdict.answered.injEq]
    constructor
    · rintro ⟨rfl, rfl⟩
      exact ⟨rfl, rfl⟩
    · rintro ⟨rfl, rfl⟩
      exact ⟨rfl, rfl⟩

/-- A phase is handed to the executor exactly when there is no reason to skip it. -/
theorem reason?_eq_none_iff : turn.reason? = none ↔ ∃ answer, turn.verdict = .answered answer := by
  rw [reason?]
  split
  · rename_i reason hverdict
    simp [hverdict]
  · rename_i answer hverdict
    simp [hverdict]

theorem result_of_reason? {reason : SkipReason} (h : turn.reason? = some reason) :
    turn.result p = Runner.skipped turn.phase reason := by
  rw [reason?] at h
  rw [result]
  split at h
  · cases h
    rfl
  · cases h

theorem mem_called {turns : List Turn} {phase : Phase} :
    phase ∈ called turns ↔ ∃ turn ∈ turns, turn.reason? = none ∧ turn.phase = phase := by
  simp [called, and_assoc]

/-- The exchanges of turns are about the phases that were not skipped. -/
theorem map_fst_exchanges {context : FileContext} (turns : List Turn) :
    (turns.filterMap (·.exchange? context)).map Prod.fst =
      (called turns).map (·.call context) := by
  induction turns with
  | nil => rfl
  | cons turn rest ih =>
      obtain ⟨phase, verdict⟩ := turn
      cases verdict with
      | skipped reason => simpa [called, exchange?, reason?] using ih
      | answered answer => simpa [called, exchange?, reason?] using ih

end Turn

/-! ## One phase -/

section Step

variable {p : ValidatedPolicy} {e : Executor σ} {context : FileContext} {phase : Phase}
  {run : FileRun σ}

theorem Runner.reason?_turnOf :
    (turnOf p e context phase run).reason? = skipReason? p context run.tracker phase := by
  rw [Turn.reason?, turnOf]
  cases skipReason? p context run.tracker phase with
  | some reason => rfl
  | none => rfl

theorem Runner.exchanges_turnOf :
    e.exchanges ((turnOf p e context phase run).call? context).toList run.world =
      ((turnOf p e context phase run).exchange? context).toList := by
  rw [Turn.call?, Turn.exchange?, turnOf]
  cases skipReason? p context run.tracker phase with
  | some reason => rfl
  | none => rfl

/-- What the turn of a phase does to a run that goes on. -/
theorem Runner.stepPhase_eq (hhalt : run.halt = none) (index total : ℕ) :
    stepPhase p e context index total phase run =
      let turn := turnOf p e context phase run
      { tracker := run.tracker.recorded (turn.result p)
        halt := turn.halt p
        calls := run.calls ++ (turn.call? context).toList
        progress := run.progress ++ [⟨context.path, phase.name, index, total⟩]
        world := e.worldAfter (turn.call? context).toList run.world } := by
  cases hreason : skipReason? p context run.tracker phase with
  | some reason =>
      simp [stepPhase, turnOf, hreason, Turn.result, Turn.halt, Turn.call?, Turn.exchange?,
        Executor.worldAfter, hhalt]
  | none =>
      simp [stepPhase, turnOf, hreason, Turn.result, Turn.halt, Turn.call?, Turn.exchange?,
        Executor.worldAfter, Phase.call]

end Step

/-! ## Accounts of a run -/

/-- The turns by which a run of a runner came about. -/
structure Account (r : Runner) (e : Executor σ) (context : FileContext) (start : σ)
    (turns : List Turn) (run : FileRun σ) : Prop where
  /-- The first phases of the runner had a turn each. -/
  phases : turns.map (·.phase) <+: r.phases
  /-- Each turn called the tracker with its result. -/
  tracker : run.tracker = Turn.trackerAfter r.policy turns
  /-- No call was refused. -/
  results : run.tracker.results = turns.map (·.result r.policy)
  /-- The executor was called for the phases that were not skipped, and answered so. -/
  exchanges : e.exchanges run.calls start = turns.filterMap (·.exchange? context)
  world : run.world = e.worldAfter run.calls start
  progress : run.progress = turns.mapIdx fun i turn =>
    ⟨context.path, turn.phase.name, i, r.phases.length⟩
  /-- Only the last turn can have ended the run. -/
  goesOn : ∀ turn ∈ turns.dropLast, turn.halt r.policy = none
  halt : run.halt = turns.getLast?.bind (·.halt r.policy)
  /-- Each decision rests on the results of the turns before. -/
  decided : ∀ before turn after, turns = before ++ turn :: after →
    turn.reason? =
      Runner.skipReason? r.policy context (Turn.trackerAfter r.policy before) turn.phase

namespace Account

variable {r : Runner} {e : Executor σ} {context : FileContext} {start : σ} {turns : List Turn}
  {run : FileRun σ}

/-- The run that has only begun. -/
theorem nil : Account r e context start [] { world := start } where
  phases := List.nil_prefix
  tracker := rfl
  results := rfl
  exchanges := rfl
  world := rfl
  progress := rfl
  goesOn := by simp
  halt := rfl
  decided := by simp

/-- The list of the tracker and its index are in step. -/
theorem inStep (h : Account r e context start turns run) : run.tracker.InStep := by
  rw [h.tracker]
  exact Turn.inStep_trackerAfter turns

theorem map_phase_results (h : Account r e context start turns run) :
    run.tracker.results.map (·.phase) = (turns.map (·.phase)).map (·.name) := by
  rw [h.results, List.map_map, List.map_map]
  exact List.map_congr_left fun turn _ => Turn.result_phase

theorem halt_eq_none
    (h : Account r e context start turns run) (hhalt : run.halt = none) :
    ∀ turn ∈ turns, turn.halt r.policy = none := by
  intro turn hturn
  rcases List.eq_nil_or_concat turns with rfl | ⟨front, last, rfl⟩
  · cases hturn
  · rw [List.concat_eq_append] at hturn h
    rcases List.mem_append.mp hturn with hfront | hlast
    · have hgoesOn := h.goesOn
      rw [List.dropLast_concat] at hgoesOn
      exact hgoesOn turn hfront
    · obtain rfl := List.mem_singleton.mp hlast
      have hlastHalt := h.halt
      rw [hhalt, List.getLast?_concat] at hlastHalt
      exact hlastHalt.symm

/-- A phase that comes next has not been recorded. -/
theorem fresh
    (h : Account r e context start turns run) (hnodup : (r.phases.map (·.name)).Nodup)
    {phase : Phase} {rest : List Phase}
    (hphases : r.phases = turns.map (·.phase) ++ phase :: rest) :
    phase.name ∉ run.tracker.results.map (·.phase) := by
  rw [h.map_phase_results]
  intro hmem
  rw [hphases, List.map_append, List.map_cons] at hnodup
  exact (List.nodup_append.mp hnodup).2.2 _ hmem _ List.mem_cons_self rfl

/-- One more phase of a run that goes on. -/
theorem step
    (h : Account r e context start turns run) (hhalt : run.halt = none)
    (hnodup : (r.phases.map (·.name)).Nodup) {phase : Phase} {rest : List Phase}
    (hphases : r.phases = turns.map (·.phase) ++ phase :: rest) :
    Account r e context start (turns ++ [Runner.turnOf r.policy e context phase run])
      (Runner.stepPhase r.policy e context turns.length r.phases.length phase run) := by
  have hfresh := h.fresh hnodup hphases
  rw [Runner.stepPhase_eq hhalt]
  constructor
  case tracker =>
    rw [Turn.trackerAfter_concat, ← h.tracker]
  case phases =>
    rw [hphases, List.map_append]
    exact (List.prefix_append_right_inj _).mpr (List.prefix_append [phase] rest)
  case results =>
    change (run.tracker.recorded _).results = _
    rw [h.inStep.recorded_of_fresh Turn.result_isFinal, Tracker.push, h.results, List.map_append]
    · rfl
    · rw [Turn.result_phase]
      exact hfresh
  case exchanges =>
    rw [Executor.exchanges_append, h.exchanges, ← h.world, List.filterMap_append,
      Runner.exchanges_turnOf]
    rfl
  case world =>
    rw [Executor.worldAfter_append, ← h.world]
  case progress =>
    rw [h.progress, List.mapIdx_concat]
    rfl
  case goesOn =>
    rw [List.dropLast_concat]
    exact h.halt_eq_none hhalt
  case halt =>
    rw [List.getLast?_concat]
    rfl
  case decided =>
    intro before turn after hsplit
    rcases List.eq_nil_or_concat after with rfl | ⟨front, last, rfl⟩
    · -- The new turn was decided on what the run had recorded.
      obtain ⟨rfl, hturn⟩ := List.append_inj' hsplit rfl
      obtain rfl := List.singleton_inj.mp hturn
      rw [Runner.reason?_turnOf, h.tracker]
      rfl
    · -- An earlier turn was decided as before.
      rw [List.concat_eq_append, ← List.cons_append, ← List.append_assoc] at hsplit
      exact h.decided before turn front (List.append_inj' hsplit rfl).1

/-- The rest of a run that goes on. -/
theorem runPhases
    (hnodup : (r.phases.map (·.name)).Nodup) {rest : List Phase}
    (h : Account r e context start turns run) (hhalt : run.halt = none)
    (hphases : r.phases = turns.map (·.phase) ++ rest) :
    ∃ all, Account r e context start all
        (Runner.runPhases r.policy e context r.phases.length turns.length rest run) ∧
      ((Runner.runPhases r.policy e context r.phases.length turns.length rest run).halt = none →
        all.map (·.phase) = r.phases) := by
  induction rest generalizing turns run with
  | nil =>
      rw [List.append_nil] at hphases
      exact ⟨turns, h, fun _ => hphases.symm⟩
  | cons phase rest ih =>
      have hstep := h.step hhalt hnodup hphases
      rw [Runner.runPhases]
      cases hnext : (Runner.stepPhase r.policy e context turns.length r.phases.length phase
          run).halt with
      | some failure =>
          refine ⟨_, hstep, ?_⟩
          simp [hnext]
      | none =>
          have hrest := ih hstep hnext (by rw [hphases, List.map_append, List.append_assoc]; rfl)
          rw [List.length_append] at hrest
          exact hrest

end Account

/-- Every run of a file comes about by turns, and all phases have one unless the run ends early. -/
theorem Runner.exists_account
    {r : Runner} (hnodup : (r.phases.map (·.name)).Nodup) (e : Executor σ)
    (context : FileContext) (world : σ) :
    ∃ turns, Account r e context world turns (r.runFile e context world) ∧
      ((r.runFile e context world).halt = none → turns.map (·.phase) = r.phases) :=
  Account.runPhases hnodup Account.nil rfl rfl

end MediaPhases
