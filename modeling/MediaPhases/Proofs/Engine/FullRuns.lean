import MediaPhases.Proofs.Engine.Reasons
import MediaPhases.Proofs.Engine.Records

/-!
# Reasons in full runs

When no phases are selected, every phase that is declared before a recorded one has been recorded
too.  What a recorded reason says of another phase then agrees with the finished run: a prerequisite
that is called pending is declared later, a prerequisite that is called unmet has not completed, and
a run-if condition fails on a completed phase only because that phase has not modified the file.  A
run of selected phases need not have this property.
-/

namespace MediaPhases

/-- What a reason says of another phase agrees with the finished run. -/
def SkipReason.AgreesWith (phases : List Phase) (final : FileResult) (phase : String) :
    SkipReason → Prop
  | .dependency d outcome =>
      outcome ≠ .completed ∧ (outcome = .pending ↔ DeclaredBefore phases phase d)
  | .runIf reference requirement outcome =>
      outcome ≠ .pending ∧ (outcome = .completed → requirement = .modified ∧
        ∃ result, final.phase? reference = some result ∧ result.outcome = .completed ∧
          result.fileModified = false)
  | .condition _ _ _ | .errorMode _ => True

namespace Account

variable {σ : Type} {r : Runner} {e : Executor σ} {context : FileContext} {start : σ}
  {turns before after : List Turn} {turn : Turn} {run : FileRun σ}

theorem outcome_ne_pending
    (h : Account r e context start turns run) (hsplit : turns = before ++ turn :: after)
    {d : String} (hd : d ∈ before.map (·.phase.name)) :
    (run.result context.path).outcome d ≠ .pending := by
  rw [Ne, h.outcome_result,
    h.inStep.outcome_eq_pending_iff fun result => h.isFinal_of_mem_results, not_not,
    h.map_phase_results, List.map_map, hsplit, List.map_append]
  exact List.mem_append_left _ hd

theorem dependency_agreesWith
    (h : Account r e context start turns run) (hr : r.IsOf r.policy)
    (hfull : r.phases = r.policy.phases) (hsplit : turns = before ++ turn :: after)
    (hphase : turn.phase ∈ r.policy.phases) {d : String} {outcome : Outcome}
    (hunmet : IsFirstUnmet r.policy.phases (run.result context.path) turn.phase d)
    (htold : IsTold (d ∈ before.map (·.phase.name)) (run.result context.path) d outcome) :
    (SkipReason.dependency d outcome).AgreesWith r.policy.phases (run.result context.path)
      turn.phase.name := by
  obtain ⟨front, back, hwritten, -, hnotMet⟩ := hunmet
  have hd : d ∈ turn.phase.dependsOn := by
    rw [hwritten]
    exact List.mem_append_cons_self
  by_cases hbefore : d ∈ before.map (·.phase.name)
  · have hdeclared := ((h.mem_before_iff hr hsplit).mp hbefore).2
    rw [htold.1 hbefore]
    refine ⟨fun hcompleted => hnotMet ⟨hdeclared, hcompleted⟩, ?_⟩
    constructor
    · intro hpending
      exact absurd hpending (h.outcome_ne_pending hsplit hbefore)
    · intro hlater
      exact absurd hlater (hdeclared.not_symm r.policy.nodup_names)
  · have hnamed : d ∈ r.phases.map (·.name) := by
      rw [hfull]
      exact ValidatedPolicy.mem_names_of_mem_dependsOn hphase hd
    have hne : turn.phase.name ≠ d := by
      rintro rfl
      exact ValidatedPolicy.not_requires_self ⟨_, hphase, rfl, hd⟩
    have hlater := h.declaredBefore_of_notMem hr hsplit hnamed hne hbefore
    rw [htold.2 hbefore]
    exact ⟨by simp, fun _ => hlater, fun _ => rfl⟩

theorem runIf_agreesWith
    (h : Account r e context start turns run) (hr : r.IsOf r.policy)
    (hfull : r.phases = r.policy.phases) (hsplit : turns = before ++ turn :: after)
    (hphase : turn.phase ∈ r.policy.phases) {c : RunIf} {outcome : Outcome}
    (hrunIf : turn.phase.runIf = some c) (hunfulfilled : ¬c.Fulfilled (run.result context.path))
    (htold : IsTold (c.reference ∈ r.phases.map (·.name)) (run.result context.path) c.reference
      outcome) :
    (SkipReason.runIf c.reference c.requirement outcome).AgreesWith r.policy.phases
      (run.result context.path) turn.phase.name := by
  have hdeclared := ValidatedPolicy.declaredBefore_of_runIf hphase hrunIf
  have hnamed : c.reference ∈ r.phases.map (·.name) := by
    rw [hfull]
    exact hdeclared.mem_left
  have hbefore := (h.mem_before_iff hr hsplit).mpr ⟨hnamed, hdeclared⟩
  rw [htold.1 hnamed]
  refine ⟨h.outcome_ne_pending hsplit hbefore, fun hcompleted => ?_⟩
  rw [h.outcome_result] at hcompleted
  obtain ⟨result, hget, hresult⟩ := Tracker.outcome_eq_completed_iff.mp hcompleted
  rw [← h.phase?_result] at hget
  -- The condition can only have failed because it asks for more than a completed phase.
  have hmodified : ¬(c.requirement = .modified → result.fileModified = true) :=
    fun hmodified => hunfulfilled ⟨result, hget, hresult, hmodified⟩
  rw [Classical.not_imp, Bool.not_eq_true] at hmodified
  exact ⟨hmodified.1, result, hget, hresult, hmodified.2⟩

theorem agreesWith_of_justified
    (h : Account r e context start turns run) (hr : r.IsOf r.policy)
    (hfull : r.phases = r.policy.phases) (hsplit : turns = before ++ turn :: after)
    {exchanges : List (Call × Except Failure Output)} {reason : SkipReason}
    (hreason : reason.Justified r exchanges context (run.result context.path)
      (before.map (·.phase.name)) turn.phase) :
    reason.AgreesWith r.policy.phases (run.result context.path) turn.phase.name := by
  have hturn : turn ∈ turns := by
    rw [hsplit]
    exact List.mem_append_cons_self
  have hphase := h.mem_phases hr hturn
  cases reason with
  | condition name value detail => trivial
  | errorMode error => trivial
  | dependency d outcome =>
      obtain ⟨hunmet, htold⟩ := hreason
      exact h.dependency_agreesWith hr hfull hsplit hphase hunmet htold
  | runIf reference requirement outcome =>
      obtain ⟨-, -, hrunIf, hunfulfilled, htold⟩ := hreason
      exact h.runIf_agreesWith hr hfull hsplit hphase hrunIf hunfulfilled htold

end Account

/-! ## Messages -/

namespace SkipReason

variable {phases : List Phase} {final : FileResult} {phase : String} {reason : SkipReason}

/-- The words for a phase that is said not to have completed although it has. -/
def deniedCompletion : String := "did not complete (outcome: completed)"

/-- The message says of some phase that it has not completed although it has. -/
def DeniesCompletion (reason : SkipReason) : Prop :=
  ∃ name : String, reason.message = s!"dependency '{name}' {deniedCompletion}" ∨
    reason.message = s!"'{name}' {deniedCompletion}"

theorem eq_completed_of_append {outcome : Outcome} {front back : String}
    (h : front ++ outcome.name ++ ")" = back ++ deniedCompletion) : outcome = .completed := by
  have hends := congrArg (fun s : String => s.toList.reverse) h
  simp only [String.toList_append, List.reverse_append, deniedCompletion] at hends
  cases outcome with
  | completed => rfl
  | pending => simp [Outcome.name] at hends
  | failed => simp [Outcome.name] at hends
  | skipped => simp [Outcome.name] at hends

theorem message_runIf_of_ne {reference : String} {requirement : Requirement} {outcome : Outcome}
    (h : outcome ≠ .completed) :
    (SkipReason.runIf reference requirement outcome).message =
      s!"'{reference}' did not complete (outcome: {outcome.name})" := by
  cases requirement <;> cases outcome <;> first | rfl | exact absurd rfl h

/-- A reason about another phase that agrees with the run is not worded so. -/
theorem AgreesWith.message_ne
    (h : reason.AgreesWith phases final phase) (hkind : reason.kind ∈ ["dependency", "run_if"])
    (front : String) : reason.message ≠ front ++ deniedCompletion := by
  intro hmessage
  cases reason with
  | condition name value detail => simp [kind] at hkind
  | errorMode error => simp [kind] at hkind
  | dependency d outcome => exact h.1 (eq_completed_of_append hmessage)
  | runIf reference requirement outcome =>
      by_cases hcompleted : outcome = .completed
      · obtain ⟨rfl, -⟩ := h.2 hcompleted
        rw [hcompleted] at hmessage
        have hends := congrArg (fun s : String => s.toList.reverse) hmessage
        simp [message.eq_def, deniedCompletion, toString] at hends
      · rw [message_runIf_of_ne hcompleted] at hmessage
        exact hcompleted (eq_completed_of_append hmessage)

theorem kind_of_deniesCompletion (h : reason.DeniesCompletion) :
    reason.kind ∈ ["dependency", "run_if"] := by
  obtain ⟨name, hname⟩ := h
  -- The two wordings begin unlike the messages of the other reasons.
  have hbegins : reason.message.toList.head? = some 'd' ∨
      reason.message.toList.head? = some '\'' := by
    rcases hname with hname | hname
    · left
      simp [hname, toString]
    · right
      simp [hname, toString]
  cases reason with
  | condition name value detail => cases detail <;> simp [message.eq_def, toString] at hbegins
  | errorMode error => simp [message.eq_def, toString] at hbegins
  | dependency d outcome => simp [kind]
  | runIf reference requirement outcome => simp [kind]

theorem AgreesWith.not_deniesCompletion
    (h : reason.AgreesWith phases final phase) : ¬reason.DeniesCompletion := by
  intro hdenies
  have hne := h.message_ne (kind_of_deniesCompletion hdenies)
  obtain ⟨name, hname | hname⟩ := hdenies
  · exact hne _ hname
  · exact hne _ hname

end SkipReason

/-! ## Runs of all phases -/

section Runs

variable {σ : Type}

/-- In a run of all phases each recorded reason agrees with the finished run. -/
theorem Runner.reasons_agree_in_full_run
    (p : ValidatedPolicy) (e : Executor σ) (context : FileContext) (world : σ) :
    let run := Runner.runFile { policy := p } e context world
    let final := run.result context.path
    ∀ result ∈ final.phaseResults, ∀ reason, result.skipReason = some reason →
      reason.AgreesWith p.phases final result.phase ∧ ¬reason.DeniesCompletion ∧
        (reason.kind ∈ ["dependency", "run_if"] →
          ∀ front, reason.message ≠ front ++ SkipReason.deniedCompletion) := by
  intro run final result hresult reason hreason
  have hr : IsOf p { policy := p } := .all
  obtain ⟨turns, h, -⟩ := exists_account hr.nodup_names e context world
  have hmem : result ∈ turns.map (·.result p) := by
    rw [← h.results]
    exact hresult
  obtain ⟨turn, hturn, rfl⟩ := List.mem_map.mp hmem
  obtain ⟨before, after, hsplit⟩ := List.append_of_mem hturn
  have hagrees : reason.AgreesWith p.phases final (turn.result p).phase := by
    rw [Turn.result_phase]
    exact h.agreesWith_of_justified hr rfl hsplit
      ((h.skipReason_result_iff_justified hr hsplit).mp hreason)
  exact ⟨hagrees, hagrees.not_deniesCompletion, hagrees.message_ne⟩

/-- Two phases of which the second runs only if the first has modified the file. -/
def ValidatedPolicy.lazy : ValidatedPolicy where
  phases := [{ name := "cut" }, { name := "mix", runIf := some ⟨.modified, "cut"⟩ }]
  graph := DependencyGraph.ofPhases
    [{ name := "cut" }, { name := "mix", runIf := some ⟨.modified, "cut"⟩ }]
  errorMode := .proceed
  graph_eq := by cbv

/-- The second phase is skipped because the first has completed without a change to the file, and
its message does not say that the first has not completed. -/
theorem Runner.mix_finds_cut_unmodified :
    let context : FileContext := { path := "film.mkv", media := {} }
    let final := (Runner.runFile { policy := .lazy } .patient context 0).result context.path
    let reason : SkipReason := .runIf "cut" .modified .completed
    (∃ result ∈ final.phaseResults, result.phase = "mix" ∧ result.skipReason = some reason) ∧
      (∃ result, final.phase? "cut" = some result ∧ result.outcome = .completed ∧
        result.fileModified = false) ∧
      ¬reason.DeniesCompletion := by
  intro context final reason
  have hresults : final.phaseResults =
      [{ phase := "cut", outcome := .completed },
        { phase := "mix", outcome := .skipped, skipReason := some reason }] := by
    rfl
  have hmix : { phase := "mix", outcome := .skipped, skipReason := some reason } ∈
      final.phaseResults := by
    rw [hresults]
    exact List.mem_cons_of_mem _ List.mem_cons_self
  obtain ⟨hagrees, hmessage, -⟩ :=
    Runner.reasons_agree_in_full_run .lazy .patient context 0 _ hmix reason rfl
  exact ⟨⟨_, hmix, rfl, rfl⟩, (hagrees.2 rfl).2, hmessage⟩

end Runs

end MediaPhases
