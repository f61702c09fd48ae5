import MediaPhases.Proofs.Engine.Gates

/-!
# Why phases are skipped

A phase may be skipped for several reasons at once, and one of them is recorded.  An unmet
prerequisite comes first, then a match of the skip condition, then a run-if condition that does not
hold; only a phase that none of these keeps from the executor can be skipped for its error mode.
Whether the recorded reason is the right one can be judged on the finished run, although it was
chosen in its midst.
-/

namespace MediaPhases

/-! ## Reasons that a finished run justifies -/

/-- A prerequisite of a phase is met when it is declared before the phase and has completed. -/
def Met (phases : List Phase) (final : FileResult) (phase : Phase) (d : String) : Prop :=
  DeclaredBefore phases d phase.name ∧ final.outcome d = .completed

/-- The first prerequisite of a phase, in the order written, that is not met. -/
def IsFirstUnmet (phases : List Phase) (final : FileResult) (phase : Phase) (d : String) : Prop :=
  ∃ front back, phase.dependsOn = front ++ d :: back ∧
    (∀ x ∈ front, Met phases final phase x) ∧ ¬Met phases final phase d

/-- The phase that a run-if condition names has completed, and has modified the file if the
condition asks for that. -/
def RunIf.Fulfilled (c : RunIf) (final : FileResult) : Prop :=
  ∃ result, final.phase? c.reference = some result ∧ result.outcome = .completed ∧
    (c.requirement = .modified → result.fileModified = true)

/-- The outcome that is told of a phase: its final one where that can be known, else pending. -/
def IsTold (known : Prop) (final : FileResult) (name : String) (outcome : Outcome) : Prop :=
  (known → outcome = final.outcome name) ∧ (¬known → outcome = .pending)

theorem isTold_iff
    {known : Prop} {final : FileResult} {name : String} {told outcome : Outcome}
    (htold : IsTold known final name told) :
    IsTold known final name outcome ↔ outcome = told := by
  constructor
  · intro houtcome
    by_cases hknown : known
    · rw [houtcome.1 hknown, htold.1 hknown]
    · rw [houtcome.2 hknown, htold.2 hknown]
  · rintro rfl
    exact htold

/-- The reason for which a phase is skipped, judged on the finished run of a runner.  Of that run
the executor's answers are known, and the names of the phases that were recorded earlier. -/
def SkipReason.Justified
    (r : Runner) (exchanges : List (Call × Except Failure Output)) (context : FileContext)
    (final : FileResult) (earlier : List String) (phase : Phase) : SkipReason → Prop
  | .dependency d outcome =>
      IsFirstUnmet r.policy.phases final phase d ∧ IsTold (d ∈ earlier) final d outcome
  | .condition name value detail =>
      (∀ d ∈ phase.dependsOn, Met r.policy.phases final phase d) ∧
        ∃ c found, phase.skipWhen = some c ∧ c.evaluate context.media = some found ∧
          found.reason = .condition name value detail
  | .runIf reference requirement outcome =>
      (∀ d ∈ phase.dependsOn, Met r.policy.phases final phase d) ∧
        (∀ c, phase.skipWhen = some c → c.evaluate context.media = none) ∧
        phase.runIf = some ⟨requirement, reference⟩ ∧
        ¬RunIf.Fulfilled ⟨requirement, reference⟩ final ∧
        IsTold (reference ∈ r.phases.map (·.name)) final reference outcome
  | .errorMode error =>
      Admitted r.policy.phases context.media final phase ∧
        r.policy.errorModeOf phase = .skip ∧
        ∃ failure, (phase.call context, .error failure) ∈ exchanges ∧ error = failure.message

/-! ## One decision -/

namespace Runner

variable {p : ValidatedPolicy} {context : FileContext} {t : Tracker} {phase : Phase}

/-- The three gates in their order. -/
theorem skipReason?_eq_some_iff {reason : SkipReason} :
    skipReason? p context t phase = some reason ↔
      (∃ d outcome, p.graph.firstUnmet? t phase.name = some (d, outcome) ∧
        .dependency d outcome = reason) ∨
      p.graph.firstUnmet? t phase.name = none ∧
        ((∃ found, phase.skipWhen.bind (·.evaluate context.media) = some found ∧
          found.reason = reason) ∨
        phase.skipWhen.bind (·.evaluate context.media) = none ∧
          ∃ c, phase.runIf = some c ∧ c.holds t = false ∧ c.skipReason t = reason) := by
  rw [skipReason?]
  cases p.graph.firstUnmet? t phase.name with
  | some unmet =>
      obtain ⟨d, outcome⟩ := unmet
      simp
  | none =>
      cases phase.skipWhen.bind (·.evaluate context.media) with
      | some found => simp
      | none =>
          cases phase.runIf with
          | none => simp
          | some c => simp

theorem skipReason?_eq_dependency_iff {d : String} {outcome : Outcome} :
    skipReason? p context t phase = some (.dependency d outcome) ↔
      p.graph.firstUnmet? t phase.name = some (d, outcome) := by
  rw [skipReason?_eq_some_iff]
  simp [SkipMatch.reason, RunIf.skipReason]

theorem skipReason?_eq_condition_iff {name value : String} {detail : Option String} :
    skipReason? p context t phase = some (.condition name value detail) ↔
      p.graph.firstUnmet? t phase.name = none ∧
        ∃ found, phase.skipWhen.bind (·.evaluate context.media) = some found ∧
          found.reason = .condition name value detail := by
  rw [skipReason?_eq_some_iff]
  simp [RunIf.skipReason]

theorem skipReason?_eq_runIf_iff
    {reference : String} {requirement : Requirement} {outcome : Outcome} :
    skipReason? p context t phase = some (.runIf reference requirement outcome) ↔
      p.graph.firstUnmet? t phase.name = none ∧
        phase.skipWhen.bind (·.evaluate context.media) = none ∧
        phase.runIf = some ⟨requirement, reference⟩ ∧
        RunIf.holds ⟨requirement, reference⟩ t = false ∧ outcome = t.outcome reference := by
  rw [skipReason?_eq_some_iff]
  constructor
  · rintro (⟨d, o, -, heq⟩ | ⟨hmet, ⟨found, -, heq⟩ | ⟨hopen, c, hc, hholds, heq⟩⟩)
    · cases heq
    · cases heq
    · cases heq
      exact ⟨hmet, hopen, hc, hholds, rfl⟩
  · rintro ⟨hmet, hopen, hc, hholds, rfl⟩
    exact Or.inr ⟨hmet, Or.inr ⟨hopen, _, hc, hholds, rfl⟩⟩

theorem skipReason?_ne_errorMode {error : String} :
    skipReason? p context t phase ≠ some (.errorMode error) := by
  rw [Ne, skipReason?_eq_some_iff]
  simp [SkipMatch.reason, RunIf.skipReason]

end Runner

/-! ## Reasons of turns -/

namespace Turn

variable {p : ValidatedPolicy} {turn : Turn}

/-- A phase is skipped at a gate or for its error mode. -/
theorem skipReason_result_eq_some_iff {reason : SkipReason} :
    (turn.result p).skipReason = some reason ↔
      turn.reason? = some reason ∨
        ∃ failure, turn.verdict = .answered (.error failure) ∧
          p.errorModeOf turn.phase = .skip ∧ reason = .errorMode failure.message := by
  rw [result, reason?]
  cases turn.verdict with
  | skipped other => simp [Runner.skipped]
  | answered answer =>
      cases answer with
      | ok output => simp [Runner.settle]
      | error failure =>
          cases p.errorModeOf turn.phase <;> simp [Runner.settle, Runner.skipped, eq_comm]

theorem result_skipped_iff :
    (turn.result p).outcome = .skipped ↔ (turn.result p).skipReason.isSome = true := by
  rw [result]
  cases turn.verdict with
  | skipped other => simp [Runner.skipped]
  | answered answer =>
      cases answer with
      | ok output => simp [Runner.settle]
      | error failure => cases p.errorModeOf turn.phase <;> simp [Runner.settle, Runner.skipped]

theorem map_phase_result (turns : List Turn) :
    (turns.map (·.result p)).map (·.phase) = turns.map (·.phase.name) := by
  rw [List.map_map]
  exact List.map_congr_left fun turn _ => result_phase

end Turn

namespace Account

variable {σ : Type} {r : Runner} {e : Executor σ} {context : FileContext} {start : σ}
  {turns before after : List Turn} {turn : Turn} {run : FileRun σ}

/-- The final outcome is known of the phases whose turn came before. -/
theorem isTold_of_turns
    (h : Account r e context start turns run) (hr : r.IsOf r.policy)
    (hsplit : turns = before ++ turn :: after) (d : String) :
    IsTold (d ∈ before.map (·.phase.name)) (run.result context.path) d
      ((Turn.trackerAfter r.policy before).outcome d) := by
  cases hget : (Turn.trackerAfter r.policy before).get? d with
  | none =>
      rw [Tracker.outcome_eq_pending hget]
      rw [Turn.get?_trackerAfter_eq_none_iff] at hget
      exact ⟨fun hd => absurd hd hget, fun _ => rfl⟩
  | some result =>
      obtain ⟨other, hother, rfl, -⟩ := Turn.exists_turn_of_get? hget
      have hd : other.phase.name ∈ before.map (·.phase.name) := List.mem_map_of_mem hother
      have hfinal := ((h.get?_before_eq_some_iff hr hsplit).mp hget).2
      rw [h.phase?_result] at hfinal
      rw [Tracker.outcome_eq_of_get? hget, ← Tracker.outcome_eq_of_get? hfinal, ← h.outcome_result]
      exact ⟨fun _ => rfl, fun hnot => absurd hd hnot⟩

/-- Of a phase that is declared before, nothing was known only if the runner leaves it out. -/
theorem isTold_of_declaredBefore
    (h : Account r e context start turns run) (hr : r.IsOf r.policy)
    (hsplit : turns = before ++ turn :: after) {d : String}
    (hdeclared : DeclaredBefore r.policy.phases d turn.phase.name) :
    IsTold (d ∈ r.phases.map (·.name)) (run.result context.path) d
      ((Turn.trackerAfter r.policy before).outcome d) := by
  have hsame : (Turn.trackerAfter r.policy before).get? d = run.tracker.get? d := by
    ext result
    rw [h.get?_before_eq_some_iff hr hsplit, h.phase?_result]
    exact and_iff_right hdeclared
  rw [Tracker.outcome_congr hsame, ← h.outcome_result]
  refine ⟨fun _ => rfl, fun habsent => ?_⟩
  rw [h.outcome_result]
  apply Tracker.outcome_eq_pending
  rw [h.inStep.get?_eq_none_iff, h.map_phase_results]
  intro hd
  exact habsent ((h.phases.map (·.name)).subset hd)

/-- The prerequisites that had completed when a turn came are those that are met in the end. -/
theorem firstUnmet?_before_eq_none_iff
    (h : Account r e context start turns run) (hr : r.IsOf r.policy)
    (hsplit : turns = before ++ turn :: after) (hphase : turn.phase ∈ r.policy.phases) :
    r.policy.graph.firstUnmet? (Turn.trackerAfter r.policy before) turn.phase.name = none ↔
      ∀ d ∈ turn.phase.dependsOn,
        Met r.policy.phases (run.result context.path) turn.phase d := by
  rw [ValidatedPolicy.firstUnmet?_eq_none_iff hphase]
  simp only [h.outcome_before_eq_completed_iff hr hsplit]
  rfl

theorem firstUnmet?_before_eq_some_iff
    (h : Account r e context start turns run) (hr : r.IsOf r.policy)
    (hsplit : turns = before ++ turn :: after) (hphase : turn.phase ∈ r.policy.phases)
    {d : String} {outcome : Outcome} :
    r.policy.graph.firstUnmet? (Turn.trackerAfter r.policy before) turn.phase.name =
        some (d, outcome) ↔
      IsFirstUnmet r.policy.phases (run.result context.path) turn.phase d ∧
        IsTold (d ∈ before.map (·.phase.name)) (run.result context.path) d outcome := by
  rw [ValidatedPolicy.firstUnmet?_eq_some_iff hphase, isTold_iff (h.isTold_of_turns hr hsplit d)]
  simp only [Ne, h.outcome_before_eq_completed_iff hr hsplit]
  rfl

theorem holds_before_iff
    (h : Account r e context start turns run) (hr : r.IsOf r.policy)
    (hsplit : turns = before ++ turn :: after) {c : RunIf}
    (hdeclared : DeclaredBefore r.policy.phases c.reference turn.phase.name) :
    c.holds (Turn.trackerAfter r.policy before) = true ↔
      c.Fulfilled (run.result context.path) := by
  rw [RunIf.holds_iff]
  simp only [h.get?_before_eq_some_iff hr hsplit, hdeclared, true_and]
  rfl

/-- A phase is skipped at a gate for the reason that the finished run justifies. -/
theorem skipReason?_before_eq_some_iff
    (h : Account r e context start turns run) (hr : r.IsOf r.policy)
    (hsplit : turns = before ++ turn :: after) (hphase : turn.phase ∈ r.policy.phases)
    {exchanges : List (Call × Except Failure Output)} {reason : SkipReason}
    (hkind : ¬∃ error, reason = .errorMode error) :
    Runner.skipReason? r.policy context (Turn.trackerAfter r.policy before) turn.phase =
        some reason ↔
      reason.Justified r exchanges context (run.result context.path)
        (before.map (·.phase.name)) turn.phase := by
  cases reason with
  | dependency d outcome =>
      rw [Runner.skipReason?_eq_dependency_iff, h.firstUnmet?_before_eq_some_iff hr hsplit hphase]
      rfl
  | condition name value detail =>
      rw [Runner.skipReason?_eq_condition_iff, h.firstUnmet?_before_eq_none_iff hr hsplit hphase]
      constructor
      · rintro ⟨hmet, found, hmatch, heq⟩
        obtain ⟨c, hc, hfound⟩ := Option.bind_eq_some_iff.mp hmatch
        exact ⟨hmet, c, found, hc, hfound, heq⟩
      · rintro ⟨hmet, c, found, hc, hfound, heq⟩
        exact ⟨hmet, found, Option.bind_eq_some_iff.mpr ⟨c, hc, hfound⟩, heq⟩
  | runIf reference requirement outcome =>
      rw [Runner.skipReason?_eq_runIf_iff, h.firstUnmet?_before_eq_none_iff hr hsplit hphase,
        SkipReason.Justified, Option.bind_eq_none_iff]
      refine and_congr_right fun _ => and_congr_right fun _ => and_congr_right fun hrunIf => ?_
      have hdeclared := ValidatedPolicy.declaredBefore_of_runIf hphase hrunIf
      rw [isTold_iff (h.isTold_of_declaredBefore hr hsplit hdeclared),
        ← h.holds_before_iff hr hsplit hdeclared, Bool.not_eq_true]
  | errorMode error => exact absurd ⟨error, rfl⟩ hkind

/-- A phase is skipped for its error mode when the executor was called for it and failed. -/
theorem justified_errorMode_iff
    (h : Account r e context start turns run) (hr : r.IsOf r.policy) (hturn : turn ∈ turns)
    {earlier : List String} {error : String} :
    SkipReason.Justified r (e.exchanges run.calls start) context (run.result context.path)
        earlier turn.phase (.errorMode error) ↔
      ∃ failure, turn.verdict = .answered (.error failure) ∧
        r.policy.errorModeOf turn.phase = .skip ∧
        SkipReason.errorMode error = .errorMode failure.message := by
  constructor
  · rintro ⟨-, hmode, failure, hcall, rfl⟩
    exact ⟨failure, (h.mem_exchanges_iff hr hturn).mp hcall, hmode, rfl⟩
  · rintro ⟨failure, hverdict, hmode, heq⟩
    have hopen : turn.reason? = none := Turn.reason?_eq_none_iff.mpr ⟨_, hverdict⟩
    refine ⟨(h.reason?_eq_none_iff_admitted hr hturn).mp hopen, hmode, failure, ?_,
      SkipReason.errorMode.inj heq⟩
    exact (h.mem_exchanges_iff hr hturn).mpr hverdict

/-- The reason that a turn records is the one that the finished run justifies. -/
theorem skipReason_result_iff_justified
    (h : Account r e context start turns run) (hr : r.IsOf r.policy)
    (hsplit : turns = before ++ turn :: after) {reason : SkipReason} :
    (turn.result r.policy).skipReason = some reason ↔
      reason.Justified r (e.exchanges run.calls start) context (run.result context.path)
        (before.map (·.phase.name)) turn.phase := by
  have hturn : turn ∈ turns := by
    rw [hsplit]
    exact List.mem_append_cons_self
  have hphase := h.mem_phases hr hturn
  rw [Turn.skipReason_result_eq_some_iff, h.decided before turn after hsplit]
  by_cases hkind : ∃ error, reason = .errorMode error
  · obtain ⟨error, rfl⟩ := hkind
    rw [h.justified_errorMode_iff hr hturn]
    exact or_iff_right Runner.skipReason?_ne_errorMode
  · rw [← h.skipReason?_before_eq_some_iff hr hsplit hphase hkind]
    refine or_iff_left ?_
    rintro ⟨failure, -, -, rfl⟩
    exact hkind ⟨_, rfl⟩

end Account

section Runs

variable {σ : Type} {p : ValidatedPolicy} {r : Runner}

/-- A recorded phase is skipped exactly when a reason is recorded, and the reason recorded is the
one that the finished run justifies. -/
theorem Runner.skipReason_eq_some_iff_justified
    (hr : r.IsOf p) (e : Executor σ) (context : FileContext) (world : σ) :
    let run := r.runFile e context world
    let final := run.result context.path
    ∀ before result after, final.phaseResults = before ++ result :: after →
      ∃ phase ∈ p.phases, phase.name = result.phase ∧
        (result.outcome = .skipped ↔ result.skipReason.isSome = true) ∧
        ∀ reason, result.skipReason = some reason ↔
          reason.Justified r (e.exchanges run.calls world) context final
            (before.map (·.phase)) phase := by
  intro run final before result after hresults
  obtain rfl := hr.policy_eq
  obtain ⟨turns, h, -⟩ := exists_account hr.nodup_names e context world
  have hturns : turns.map (·.result r.policy) = before ++ result :: after := by
    rw [← hresults]
    exact h.results.symm
  obtain ⟨front, back, rfl, rfl, hback⟩ := List.map_eq_append_iff.mp hturns
  obtain ⟨turn, rest, rfl, rfl, rfl⟩ := List.map_eq_cons_iff.mp hback
  refine ⟨turn.phase, ?_, Turn.result_phase.symm, Turn.result_skipped_iff, fun reason => ?_⟩
  · exact h.mem_phases hr List.mem_append_cons_self
  · rw [Turn.map_phase_result]
    exact h.skipReason_result_iff_justified hr rfl

/-- Three phases of which the second requires the third, which is declared after it. -/
def ValidatedPolicy.tangled : ValidatedPolicy where
  phases := [
    { name := "cut", onError := some .skip },
    { name := "mix", dependsOn := ["cut", "tag", "cut"], runIf := some ⟨.modified, "cut"⟩ },
    { name := "tag" }]
  graph := DependencyGraph.ofPhases [
    { name := "cut", onError := some .skip },
    { name := "mix", dependsOn := ["cut", "tag", "cut"], runIf := some ⟨.modified, "cut"⟩ },
    { name := "tag" }]
  errorMode := .proceed
  graph_eq := by cbv

/-- The second phase is skipped for the third as pending, although that completes in the end, and
not for its run-if condition, which does not hold either. -/
theorem Runner.mix_skipped_for_tag :
    let context : FileContext := { path := "film.mkv", media := {} }
    let run := Runner.runFile { policy := .tangled } .patient context 0
    let final := run.result context.path
    final.outcome "tag" = .completed ∧
      ∃ phase ∈ ValidatedPolicy.tangled.phases, phase.name = "mix" ∧
        (SkipReason.dependency "tag" .pending).Justified { policy := .tangled }
          (Executor.patient.exchanges run.calls 0) context final ["cut"] phase := by
  intro context run final
  have hresults : final.phaseResults =
      [{ phase := "cut", outcome := .completed }] ++
        { phase := "mix", outcome := .skipped, skipReason := some (.dependency "tag" .pending) } ::
          [{ phase := "tag", outcome := .completed }] := by
    rfl
  obtain ⟨phase, hphase, hname, -, hreason⟩ :=
    skipReason_eq_some_iff_justified .all .patient context 0 _ _ _ hresults
  exact ⟨rfl, phase, hphase, hname, (hreason _).mp rfl⟩

end Runs

end MediaPhases
