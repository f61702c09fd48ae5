import MediaPhases.Proofs.Engine.Independence

/-!
# Runs of a selection

The turns of a run are determined by the phases that it goes through and by the answers of the
executor.  Of the turns of a run, those of a set of phases that is closed under references are the
turns of a run through these phases alone, unless a phase outside the set has ended the run.  So
selecting such a set of phases changes nothing about them.
-/

namespace MediaPhases

/-- The turns of a run through phases, for which the answers of the executor are given. -/
structure RunsThrough (p : ValidatedPolicy) (answer : Call → Except Failure Output)
    (context : FileContext) (phases : List Phase) (turns : List Turn) : Prop where
  consecutive : Consecutive p answer context turns
  begins : turns.map (·.phase) <+: phases
  /-- A turn that ends the run is the last one. -/
  last : ∀ before turn after, turns = before ++ turn :: after →
    ∀ halt, turn.halt p = some halt → after = []
  /-- All phases have a turn unless one of them ends the run. -/
  complete : turns.map (·.phase) = phases ∨ ∃ turn ∈ turns, ∃ halt, turn.halt p = some halt

namespace RunsThrough

variable {p : ValidatedPolicy} {answer : Call → Except Failure Output} {context : FileContext}
  {phases : List Phase} {turns more : List Turn}

theorem eq_of_isPrefix
    (h : RunsThrough p answer context phases turns)
    (hmore : RunsThrough p answer context phases more) (hfirst : turns <+: more) : turns = more := by
  obtain ⟨rest, rfl⟩ := hfirst
  cases rest with
  | nil => exact (List.append_nil turns).symm
  | cons next rest =>
      -- Neither can a phase be left, nor can the run go on after it has been ended.
      exfalso
      rcases h.complete with hall | ⟨turn, hturn, halt, hhalt⟩
      · have hlength := hmore.begins.length_le
        rw [← hall, List.length_map, List.length_map, List.length_append, List.length_cons]
          at hlength
        omega
      · obtain ⟨before, after, rfl⟩ := List.append_of_mem hturn
        have hend := hmore.last before turn (after ++ next :: rest)
          (by rw [List.append_assoc, List.cons_append]) halt hhalt
        simp at hend

/-- There is one run through given phases with given answers. -/
theorem unique
    (h : RunsThrough p answer context phases turns)
    (hmore : RunsThrough p answer context phases more) : turns = more := by
  rcases h.consecutive.isPrefix_or_isPrefix hmore.consecutive h.begins hmore.begins with
    hfirst | hfirst
  · exact h.eq_of_isPrefix hmore hfirst
  · exact (hmore.eq_of_isPrefix h hfirst).symm

/-- What a run does on a closed set of phases is a run through them, unless a phase outside the
set ends the run. -/
theorem filter
    (h : RunsThrough p answer context phases turns) {s : Set String} [DecidablePred (· ∈ s)]
    (hclosed : ClosedUnderReferences p.phases s)
    (hinside : ∀ turn ∈ turns, ∀ halt, turn.halt p = some halt → turn.phase.name ∈ s) :
    RunsThrough p answer context (phases.filter (·.name ∈ s))
      (turns.filter (·.phase.name ∈ s)) := by
  have hmap : (turns.filter (·.phase.name ∈ s)).map (·.phase) =
      (turns.map (·.phase)).filter (·.name ∈ s) := by
    rw [List.filter_map]
    rfl
  constructor
  case consecutive => exact h.consecutive.filter hclosed
  case begins =>
    rw [hmap]
    exact h.begins.filter _
  case last =>
    intro before turn after hsplit halt hhalt
    obtain ⟨front, back, hturns, -, hback⟩ := List.filter_eq_append_iff.mp hsplit
    obtain ⟨skipped, rest, rfl, -, -, rfl⟩ := List.filter_eq_cons_iff.mp hback
    have hrest : rest = [] :=
      h.last (front ++ skipped) turn rest (by rw [hturns, List.append_assoc]) halt hhalt
    rw [hrest, List.filter_nil]
  case complete =>
    rcases h.complete with hall | ⟨turn, hturn, halt, hhalt⟩
    · left
      rw [hmap, hall]
    · right
      have hname := hinside turn hturn halt hhalt
      exact ⟨turn, List.mem_filter.mpr ⟨hturn, decide_eq_true hname⟩, halt, hhalt⟩

end RunsThrough

/-- Every run of a file by an executor whose answers are given goes through the phases of the
runner. -/
theorem Runner.exists_runsThrough
    {σ : Type} {p : ValidatedPolicy} {r : Runner} (hr : r.IsOf p) {e : Executor σ}
    {answer : Call → Except Failure Output} (hanswers : e.Answers answer) (context : FileContext)
    (world : σ) :
    ∃ turns, RunsThrough p answer context r.phases turns ∧
      (r.runFile e context world).tracker.results = turns.map (·.result p) ∧
      ∀ halt, (r.runFile e context world).halt = some halt ↔
        ∃ turn ∈ turns, turn.halt p = some halt := by
  obtain rfl := hr.policy_eq
  obtain ⟨turns, h, hall⟩ := exists_account hr.nodup_names e context world
  refine ⟨turns, ⟨h.consecutive hr hanswers, h.phases, ?_, ?_⟩, h.results,
    fun halt => h.halt_eq_some_iff_exists_turn⟩
  · intro before turn after hsplit halt hhalt
    cases after with
    | nil => rfl
    | cons next rest =>
        have hnone : turn.halt r.policy = none := by
          refine h.goesOn turn ?_
          rw [hsplit, List.dropLast_append_cons]
          exact List.mem_append_right before List.mem_cons_self
        rw [hnone] at hhalt
        cases hhalt
  · cases hhalt : (r.runFile e context world).halt with
    | none => exact Or.inl (hall hhalt)
    | some halt =>
        obtain ⟨turn, hturn, hend⟩ := h.halt_eq_some_iff_exists_turn.mp hhalt
        exact Or.inr ⟨turn, hturn, halt, hend⟩

section Runs

variable {σ : Type} {p : ValidatedPolicy}

/-- The results of turns of certain phases are the results of these phases. -/
theorem Turn.map_result_filter (turns : List Turn) (names : List String) :
    (turns.filter (·.phase.name ∈ names)).map (·.result p) =
      (turns.map (·.result p)).filter (·.phase ∈ names) := by
  rw [List.filter_map]
  refine congrArg (List.map _) (List.filter_congr fun turn _ => ?_)
  rw [Function.comp_apply, Turn.result_phase]

/-- Selecting phases that refer to no others changes nothing about them, unless the run through all
phases was ended by a phase that is not selected. -/
theorem Runner.result_select_of_closed
    {e : Executor σ} {answer : Call → Except Failure Output} (hanswers : e.Answers answer)
    (context : FileContext) (world other : σ) {names : List String}
    (hnames : ∀ name ∈ names, name ∈ p.phases.map (·.name))
    (hclosed : ClosedUnderReferences p.phases {name | name ∈ names}) :
    let full := (Runner.runFile { policy := p } e context world).result context.path
    (∀ name, full.failedPhase = some name → name ∈ names) →
      ∃ s warnings, Runner.select { policy := p } names = .ok (s, warnings) ∧
        let part := (s.runFile e context other).result context.path
        part.phaseResults = full.phaseResults.filter (·.phase ∈ names) ∧
          part.success = full.success ∧ part.stoppedEarly = full.stoppedEarly ∧
          part.failedPhase = full.failedPhase ∧ part.errorMessage = full.errorMessage := by
  intro full hhalted
  have hr : IsOf p { policy := p } := .all
  obtain ⟨s, warnings, hselect⟩ := exists_select (r := { policy := p }) hnames
  have hs : IsOf p s := hr.select hselect
  obtain ⟨turns, hfull, hresults, hend⟩ := exists_runsThrough hr hanswers context world
  obtain ⟨chosen, hpart, hpartResults, hpartEnd⟩ := exists_runsThrough hs hanswers context other
  have hinside : ∀ turn ∈ turns, ∀ halt, turn.halt p = some halt → turn.phase.name ∈ names := by
    intro turn hturn halt hhalt
    obtain ⟨failure, -, -, rfl⟩ := Turn.halt_eq_some_iff.mp hhalt
    exact hhalted _ (FileRun.failedPhase_eq_some_iff.mpr
      ⟨_, (hend _).mpr ⟨turn, hturn, hhalt⟩, rfl⟩)
  have hchosen : chosen = turns.filter (·.phase.name ∈ names) := by
    rw [phases_of_select hselect] at hpart
    exact hpart.unique (hfull.filter hclosed hinside)
  have hhalt : (s.runFile e context other).halt =
      (Runner.runFile { policy := p } e context world).halt := by
    ext halt
    rw [hpartEnd, hend, hchosen]
    constructor
    · rintro ⟨turn, hturn, hturnHalt⟩
      exact ⟨turn, List.mem_of_mem_filter hturn, hturnHalt⟩
    · rintro ⟨turn, hturn, hturnHalt⟩
      have hname := hinside turn hturn halt hturnHalt
      exact ⟨turn, List.mem_filter.mpr ⟨hturn, decide_eq_true hname⟩, hturnHalt⟩
  refine ⟨s, warnings, hselect, ?_, ?_, ?_, ?_, ?_⟩
  · change (s.runFile e context other).tracker.results =
      (Runner.runFile { policy := p } e context world).tracker.results.filter _
    rw [hpartResults, hresults, hchosen, Turn.map_result_filter]
  · exact congrArg Option.isNone hhalt
  · exact congrArg Option.isSome hhalt
  · exact congrArg (Option.map (·.phase)) hhalt
  · exact congrArg (Option.map (·.error)) hhalt

/-- A phase that ends the run and the phase that it rests on do the same without a third, which
fails. -/
theorem Runner.select_mix_cut :
    let context : FileContext := { path := "film.mkv", media := {} }
    let clumsy : Executor Unit := .pure "clumsy" fun call =>
      if call.phase = "cut" then .ok {} else .error (.internal "slipped")
    let full := (Runner.runFile { policy := .siblings } clumsy context ()).result context.path
    full.phaseResults.map (·.outcome) = [.completed, .failed, .failed] ∧
      full.failedPhase = some "mix" ∧
      ∃ s warnings, Runner.select { policy := .siblings } ["mix", "cut"] = .ok (s, warnings) ∧
        let part := (s.runFile clumsy context ()).result context.path
        part.phaseResults = full.phaseResults.filter (·.phase ∈ ["mix", "cut"]) ∧
          part.success = full.success ∧ part.stoppedEarly = full.stoppedEarly ∧
          part.failedPhase = full.failedPhase ∧ part.errorMessage = full.errorMessage := by
  intro context clumsy full
  have hhalted : full.failedPhase = some "mix" := rfl
  refine ⟨rfl, hhalted, ?_⟩
  refine result_select_of_closed (Executor.answers_pure _ _) context () ()
    (by simp [ValidatedPolicy.siblings]) ValidatedPolicy.closedUnderReferences_siblings ?_
  intro name hname
  have hmix : name = "mix" := (Option.some.inj (hhalted.symm.trans hname)).symm
  simp [hmix]

end Runs

end MediaPhases
