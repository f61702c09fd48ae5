import MediaPhases.Proofs.Engine.Halting
import Mathlib.Data.List.Find
import Mathlib.Order.Bounds.Defs

/-!
# What the result of a phase depends on

A phase refers to its prerequisites and to the phase that its run-if condition names.  What becomes
of it depends only on the phases that it refers to, on those that they refer to in turn, and on the
answers of the executor about all of these.  The turns of the phases of a set that is closed under
references follow from each other, whatever stands between them; so two runs with the same answers
there have the same turns, as far as both runs go.
-/

namespace MediaPhases

/-! ## References between phases -/

/-- The phase named `a` names `b` as a prerequisite or in its run-if condition. -/
def Refers (phases : List Phase) (a b : String) : Prop :=
  ∃ phase ∈ phases, phase.name = a ∧
    (b ∈ phase.dependsOn ∨ ∃ c, phase.runIf = some c ∧ c.reference = b)

/-- A set of names that has with a phase all that the phase refers to. -/
def ClosedUnderReferences (phases : List Phase) (s : Set String) : Prop :=
  ∀ a ∈ s, ∀ b, Refers phases a b → b ∈ s

/-- The phases on which a phase rests: itself and what it refers to, also through others. -/
def foundation (phases : List Phase) (name : String) : Set String :=
  {q | Relation.ReflTransGen (Refers phases) name q}

theorem mem_foundation_self {phases : List Phase} {name : String} :
    name ∈ foundation phases name :=
  Relation.ReflTransGen.refl

theorem closedUnderReferences_foundation {phases : List Phase} {name : String} :
    ClosedUnderReferences phases (foundation phases name) := by
  intro a ha b hab
  exact Relation.ReflTransGen.tail ha hab

theorem isLeast_foundation (phases : List Phase) (name : String) :
    IsLeast {s | name ∈ s ∧ ClosedUnderReferences phases s} (foundation phases name) := by
  refine ⟨⟨mem_foundation_self, closedUnderReferences_foundation⟩, ?_⟩
  rintro s ⟨hname, hclosed⟩ q (hq : Relation.ReflTransGen (Refers phases) name q)
  induction hq with
  | refl => exact hname
  | tail _ hab ih => exact hclosed _ ih _ hab

theorem RunIf.holds_congr {c : RunIf} {t t' : Tracker}
    (h : t.get? c.reference = t'.get? c.reference) : c.holds t = c.holds t' := by
  rw [Bool.eq_iff_iff, holds_iff, holds_iff, h]

/-- The decision on a phase rests on the results of the phases that it refers to. -/
theorem Runner.skipReason?_congr
    {p : ValidatedPolicy} {context : FileContext} {t t' : Tracker} {phase : Phase}
    (hphase : phase ∈ p.phases)
    (h : ∀ b, Refers p.phases phase.name b → t.get? b = t'.get? b) :
    skipReason? p context t phase = skipReason? p context t' phase := by
  have hunmet : p.graph.firstUnmet? t phase.name = p.graph.firstUnmet? t' phase.name := by
    refine DependencyGraph.firstUnmet?_congr fun d hd => Tracker.outcome_congr (h d ?_)
    exact ⟨phase, hphase, rfl, Or.inl ((ValidatedPolicy.mem_prerequisites_iff hphase).mp hd)⟩
  rw [skipReason?, skipReason?, hunmet]
  cases hrunIf : phase.runIf with
  | none => rfl
  | some c =>
      have hreference := h c.reference ⟨phase, hphase, rfl, Or.inr ⟨c, hrunIf, rfl⟩⟩
      simp only [RunIf.holds_congr hreference, RunIf.skipReason,
        Tracker.outcome_congr hreference]

/-! ## Executors whose answers depend on the call -/

/-- The answer of an executor is a function of the phase, its operations and the file. -/
def Executor.Answers {σ : Type} (e : Executor σ) (answer : Call → Except Failure Output) : Prop :=
  ∀ call world, (e.execute call world).1 = answer call

theorem Executor.answers_pure {σ : Type} (name : String) (answer : Call → Except Failure Output) :
    (Executor.pure (σ := σ) name answer).Answers answer :=
  fun _ _ => rfl

theorem Executor.Answers.of_mem_exchanges
    {σ : Type} {e : Executor σ} {answer : Call → Except Failure Output} (h : e.Answers answer)
    {calls : List Call} {world : σ} {call : Call} {given : Except Failure Output}
    (hgiven : (call, given) ∈ e.exchanges calls world) : given = answer call := by
  induction calls generalizing world with
  | nil => cases hgiven
  | cons first rest ih =>
      rw [exchanges, List.mem_cons] at hgiven
      rcases hgiven with hfirst | hrest
      · obtain ⟨rfl, rfl⟩ := Prod.mk.inj hfirst
        exact h call world
      · exact ih hrest

/-! ## Turns that follow from each other -/

/-- The turn of a phase after certain turns, where the answers of the executor are given. -/
def Turn.next (p : ValidatedPolicy) (answer : Call → Except Failure Output)
    (context : FileContext) (before : List Turn) (phase : Phase) : Turn where
  phase := phase
  verdict :=
    match Runner.skipReason? p context (trackerAfter p before) phase with
    | some reason => .skipped reason
    | none => .answered (answer (phase.call context))

/-- Each turn of a phase of the policy follows from the turns before it. -/
def Consecutive (p : ValidatedPolicy) (answer : Call → Except Failure Output)
    (context : FileContext) (turns : List Turn) : Prop :=
  ∀ before turn after, turns = before ++ turn :: after →
    turn.phase ∈ p.phases ∧ turn = Turn.next p answer context before turn.phase

theorem Turn.get?_filter
    {p : ValidatedPolicy} {s : Set String} [DecidablePred (· ∈ s)] (turns : List Turn)
    {name : String} (hname : name ∈ s) :
    (trackerAfter p (turns.filter (·.phase.name ∈ s))).get? name =
      (trackerAfter p turns).get? name := by
  have hsame : ∀ turn ∈ turns,
      decide (decide (turn.phase.name ∈ s) = true ∧
        ((fun result : PhaseResult => result.phase == name) ∘ (·.result p)) turn = true) =
      ((fun result : PhaseResult => result.phase == name) ∘ (·.result p)) turn := by
    intro turn _
    by_cases hturn : turn.phase.name = name
    · simp [hturn, hname]
    · simp [hturn]
  rw [get?_trackerAfter, get?_trackerAfter, List.find?_map, List.find?_map, List.find?_filter,
    List.find?_congr hsame]

namespace Consecutive

variable {p : ValidatedPolicy} {answer other : Call → Except Failure Output}
  {context : FileContext} {turns more : List Turn}

theorem of_append (h : Consecutive p answer context (turns ++ more)) :
    Consecutive p answer context turns := by
  intro before turn after hsplit
  refine h before turn (after ++ more) ?_
  rw [hsplit, List.append_assoc, List.cons_append]

/-- The turns of the phases of a closed set follow from each other. -/
theorem filter
    (h : Consecutive p answer context turns) {s : Set String} [DecidablePred (· ∈ s)]
    (hclosed : ClosedUnderReferences p.phases s) :
    Consecutive p answer context (turns.filter (·.phase.name ∈ s)) := by
  intro before turn after hsplit
  obtain ⟨front, back, hturns, rfl, hback⟩ := List.filter_eq_append_iff.mp hsplit
  obtain ⟨skipped, rest, rfl, hskipped, hturn, -⟩ := List.filter_eq_cons_iff.mp hback
  have hbefore : (front ++ skipped).filter (·.phase.name ∈ s) =
      front.filter (·.phase.name ∈ s) := by
    rw [List.filter_append, List.filter_eq_nil_iff.mpr hskipped, List.append_nil]
  obtain ⟨hphase, hnext⟩ := h (front ++ skipped) turn rest (by rw [hturns, List.append_assoc])
  refine ⟨hphase, hnext.trans ?_⟩
  have hreason : Runner.skipReason? p context
        (Turn.trackerAfter p (front ++ skipped)) turn.phase =
      Runner.skipReason? p context
        (Turn.trackerAfter p (front.filter (·.phase.name ∈ s))) turn.phase := by
    refine Runner.skipReason?_congr hphase fun b hb => ?_
    rw [← hbefore]
    exact (Turn.get?_filter _ (hclosed _ (of_decide_eq_true hturn) b hb)).symm
  rw [Turn.next, hreason]
  rfl

/-- Only the answers about the phases of the turns matter. -/
theorem congr
    (h : Consecutive p answer context turns)
    (halike : ∀ turn ∈ turns, answer (turn.phase.call context) = other (turn.phase.call context)) :
    Consecutive p other context turns := by
  intro before turn after hsplit
  have hturn : turn ∈ turns := by
    rw [hsplit]
    exact List.mem_append_cons_self
  obtain ⟨hphase, hnext⟩ := h before turn after hsplit
  refine ⟨hphase, hnext.trans ?_⟩
  rw [Turn.next, halike turn hturn]
  rfl

/-- Of two sequences of turns of the same phases, one is the beginning of the other. -/
theorem isPrefix_or_isPrefix
    (h : Consecutive p answer context turns) (hmore : Consecutive p answer context more)
    {phases : List Phase} (hphases : turns.map (·.phase) <+: phases)
    (hmorePhases : more.map (·.phase) <+: phases) : turns <+: more ∨ more <+: turns := by
  induction turns using List.reverseRecOn with
  | nil => exact Or.inl List.nil_prefix
  | append_singleton front last ih =>
      have hfront : front.map (·.phase) <+: phases :=
        (List.prefix_append _ _).trans (by simpa using hphases)
      rcases ih h.of_append hfront with hlonger | hshorter
      · obtain ⟨rest, rfl⟩ := hlonger
        cases rest with
        | nil => exact Or.inr (by simp)
        | cons next rest =>
            -- The two turns after `front` are of the same phase.
            have hphase : last.phase = next.phase := by
              obtain ⟨tail, htail⟩ := hphases
              obtain ⟨moreTail, hmoreTail⟩ := hmorePhases
              have hafter : front.map (·.phase) ++ last.phase :: tail =
                  front.map (·.phase) ++ next.phase :: (rest.map (·.phase) ++ moreTail) := by
                simpa using htail.trans hmoreTail.symm
              exact (List.cons.inj (List.append_cancel_left hafter)).1
            have hlast := (h front last [] rfl).2
            have hnext := (hmore front next rest rfl).2
            have hsame : last = next := by rw [hlast, hphase, ← hnext]
            rw [hsame]
            exact Or.inl ⟨rest, by simp⟩
      · exact Or.inr (hshorter.trans (List.prefix_append _ _))

end Consecutive

/-! ## Runs of executors whose answers depend on the call -/

namespace Account

variable {σ : Type} {r : Runner} {e : Executor σ} {answer : Call → Except Failure Output}
  {context : FileContext} {start : σ} {turns : List Turn} {run : FileRun σ}

theorem consecutive
    (h : Account r e context start turns run) (hr : r.IsOf r.policy) (hanswers : e.Answers answer) :
    Consecutive r.policy answer context turns := by
  intro before turn after hsplit
  have hturn : turn ∈ turns := by
    rw [hsplit]
    exact List.mem_append_cons_self
  refine ⟨h.mem_phases hr hturn, ?_⟩
  have hdecided := h.decided before turn after hsplit
  obtain ⟨phase, verdict⟩ := turn
  cases verdict with
  | skipped reason =>
      have hreason : Runner.skipReason? r.policy context
          (Turn.trackerAfter r.policy before) phase = some reason := hdecided.symm
      rw [Turn.next, hreason]
  | answered given =>
      have hreason : Runner.skipReason? r.policy context
          (Turn.trackerAfter r.policy before) phase = none := hdecided.symm
      have hgiven : given = answer (phase.call context) :=
        hanswers.of_mem_exchanges ((h.mem_exchanges_iff hr hturn).mpr rfl)
      rw [Turn.next, hreason, hgiven]

/-- The turns of the phases of a set are of the first phases of the runner in that set. -/
theorem isPrefix_filter_phases
    (h : Account r e context start turns run) (s : Set String) [DecidablePred (· ∈ s)] :
    (turns.filter (·.phase.name ∈ s)).map (·.phase) <+: r.phases.filter (·.name ∈ s) := by
  have hfirst := h.phases.filter (·.name ∈ s)
  rw [List.filter_map] at hfirst
  exact hfirst

/-- The result found for a phase is that of its turn. -/
theorem exists_turn_of_phase?
    (h : Account r e context start turns run) {name : String} {result : PhaseResult}
    (hget : (run.result context.path).phase? name = some result) :
    ∃ turn ∈ turns, turn.phase.name = name ∧ turn.result r.policy = result := by
  rw [h.phase?_result, h.tracker] at hget
  exact Turn.exists_turn_of_get? hget

/-- A phase of the runner that was not recorded stands behind the one that ended the run. -/
theorem exists_halt_of_phase?_eq_none
    (h : Account r e context start turns run) (hr : r.IsOf r.policy)
    (hall : run.halt = none → turns.map (·.phase) = r.phases) {phase : Phase}
    (hphase : phase ∈ r.phases) (hget : (run.result context.path).phase? phase.name = none) :
    ∃ halt, run.halt = some halt ∧ DeclaredBefore r.policy.phases halt.phase phase.name := by
  have hturns : phase ∉ turns.map (·.phase) := by
    intro hmem
    rw [h.phase?_result, h.inStep.get?_eq_none_iff, h.map_phase_results] at hget
    exact hget (List.mem_map_of_mem hmem)
  cases hhalt : run.halt with
  | none =>
      rw [hall hhalt] at hturns
      exact absurd hphase hturns
  | some halt =>
      obtain ⟨last, hlast, hturn⟩ := h.halt_eq_some_iff.mp hhalt
      obtain ⟨failure, -, -, rfl⟩ := Turn.halt_eq_some_iff.mp hturn
      have hlastPhase : last.phase ∈ turns.map (·.phase) :=
        List.mem_map_of_mem (List.mem_of_getLast? hlast)
      obtain ⟨rest, hrest⟩ := h.phases
      rw [← hrest] at hphase
      obtain ⟨front, back, rfl⟩ :=
        List.append_of_mem ((List.mem_append.mp hphase).resolve_left hturns)
      have hsub := hr.phases_sublist
      rw [← hrest, ← List.append_assoc] at hsub
      refine ⟨_, rfl, DeclaredBefore.of_sublist hsub ?_⟩
      exact List.mem_map_of_mem (List.mem_append_left front hlastPhase)

end Account

/-- In two runs that get to a phase, what became of it is the same, if the executors answer alike
about the phases on which it rests. -/
theorem Account.result_eq
    {σ₁ σ₂ : Type} {r : Runner} (hr : r.IsOf r.policy) {e₁ : Executor σ₁} {e₂ : Executor σ₂}
    {answer₁ answer₂ : Call → Except Failure Output}
    (hanswers₁ : e₁.Answers answer₁) (hanswers₂ : e₂.Answers answer₂)
    {context : FileContext} {start₁ : σ₁} {start₂ : σ₂} {turns₁ turns₂ : List Turn}
    {run₁ : FileRun σ₁} {run₂ : FileRun σ₂}
    (h₁ : Account r e₁ context start₁ turns₁ run₁) (h₂ : Account r e₂ context start₂ turns₂ run₂)
    {name : String}
    (halike : ∀ phase ∈ r.policy.phases, phase.name ∈ foundation r.policy.phases name →
      answer₁ (phase.call context) = answer₂ (phase.call context))
    {result₁ result₂ : PhaseResult}
    (hget₁ : (run₁.result context.path).phase? name = some result₁)
    (hget₂ : (run₂.result context.path).phase? name = some result₂) : result₁ = result₂ := by
  classical
  let s := foundation r.policy.phases name
  have hclosed : ClosedUnderReferences r.policy.phases s := closedUnderReferences_foundation
  have hfollow₂ := (h₂.consecutive hr hanswers₂).filter hclosed
  have hfollow₁ : Consecutive r.policy answer₂ context
      (turns₁.filter (·.phase.name ∈ s)) := by
    refine ((h₁.consecutive hr hanswers₁).filter hclosed).congr fun turn hturn => ?_
    obtain ⟨hturn, hname⟩ := List.mem_filter.mp hturn
    exact halike turn.phase (h₁.mem_phases hr hturn) (of_decide_eq_true hname)
  obtain ⟨turn₁, hturn₁, rfl, rfl⟩ := h₁.exists_turn_of_phase? hget₁
  obtain ⟨turn₂, hturn₂, hname, rfl⟩ := h₂.exists_turn_of_phase? hget₂
  have hmem₁ : turn₁ ∈ turns₁.filter (·.phase.name ∈ s) :=
    List.mem_filter.mpr ⟨hturn₁, decide_eq_true mem_foundation_self⟩
  have hmem₂ : turn₂ ∈ turns₂.filter (·.phase.name ∈ s) := by
    refine List.mem_filter.mpr ⟨hturn₂, decide_eq_true ?_⟩
    rw [hname]
    exact mem_foundation_self
  have hsame : turn₁ = turn₂ := by
    rcases hfollow₁.isPrefix_or_isPrefix hfollow₂ (h₁.isPrefix_filter_phases s)
        (h₂.isPrefix_filter_phases s) with hfirst | hfirst
    · have hother : turn₁ ∈ turns₂ := (List.mem_filter.mp (hfirst.mem hmem₁)).1
      exact h₂.eq_of_name_eq_turns hr hother hturn₂ hname.symm
    · have hother : turn₂ ∈ turns₁ := (List.mem_filter.mp (hfirst.mem hmem₂)).1
      exact h₁.eq_of_name_eq_turns hr hturn₁ hother hname.symm
  rw [hsame]

section Runs

variable {σ₁ σ₂ : Type} {p : ValidatedPolicy}

/-- What becomes of a phase does not depend on the answers of the executor about phases on which it
does not rest: in two runs that record the phase the result is the same, and a run that does not
record it was ended by a phase that is declared before. -/
theorem Runner.result_eq_of_answers_alike
    {e₁ : Executor σ₁} {e₂ : Executor σ₂} {answer₁ answer₂ : Call → Except Failure Output}
    (hanswers₁ : e₁.Answers answer₁) (hanswers₂ : e₂.Answers answer₂) (context : FileContext)
    (world₁ : σ₁) (world₂ : σ₂) {phase : Phase} (hphase : phase ∈ p.phases)
    (halike : ∀ q ∈ p.phases, q.name ∈ foundation p.phases phase.name →
      answer₁ (q.call context) = answer₂ (q.call context)) :
    let final₁ := (Runner.runFile { policy := p } e₁ context world₁).result context.path
    let final₂ := (Runner.runFile { policy := p } e₂ context world₂).result context.path
    (∀ result₁ result₂, final₁.phase? phase.name = some result₁ →
      final₂.phase? phase.name = some result₂ → result₁ = result₂) ∧
      ∀ final ∈ [final₁, final₂], final.phase? phase.name = none →
        ∃ halting, final.failedPhase = some halting ∧
          DeclaredBefore p.phases halting phase.name := by
  intro final₁ final₂
  have hr : IsOf p { policy := p } := .all
  obtain ⟨turns₁, h₁, hall₁⟩ := exists_account hr.nodup_names e₁ context world₁
  obtain ⟨turns₂, h₂, hall₂⟩ := exists_account hr.nodup_names e₂ context world₂
  constructor
  · intro result₁ result₂ hget₁ hget₂
    exact h₁.result_eq hr hanswers₁ hanswers₂ h₂ halike hget₁ hget₂
  · intro final hfinal hnone
    rcases List.mem_pair.mp hfinal with rfl | rfl
    · obtain ⟨halt, hhalt, hbefore⟩ := h₁.exists_halt_of_phase?_eq_none hr hall₁ hphase hnone
      exact ⟨_, FileRun.failedPhase_eq_some_iff.mpr ⟨halt, hhalt, rfl⟩, hbefore⟩
    · obtain ⟨halt, hhalt, hbefore⟩ := h₂.exists_halt_of_phase?_eq_none hr hall₂ hphase hnone
      exact ⟨_, FileRun.failedPhase_eq_some_iff.mpr ⟨halt, hhalt, rfl⟩, hbefore⟩

/-- Two phases that do not rest on each other, and a third that rests on the first alone. -/
def ValidatedPolicy.siblings : ValidatedPolicy where
  phases := [
    { name := "cut" }, { name := "tag" },
    { name := "mix", dependsOn := ["cut"], runIf := some ⟨.completed, "cut"⟩,
      onError := some .stop }]
  graph := DependencyGraph.ofPhases [
    { name := "cut" }, { name := "tag" },
    { name := "mix", dependsOn := ["cut"], runIf := some ⟨.completed, "cut"⟩,
      onError := some .stop }]
  errorMode := .proceed
  graph_eq := by cbv

theorem ValidatedPolicy.closedUnderReferences_siblings :
    ClosedUnderReferences siblings.phases {name | name ∈ ["mix", "cut"]} := by
  rintro a ha b ⟨phase, hphase, rfl, hb⟩
  simp only [siblings, List.mem_cons, List.not_mem_nil, or_false] at hphase
  rcases hphase with rfl | rfl | rfl
  · simp at hb
  · simp at hb
  · have hcut : b = "cut" := by simpa [eq_comm] using hb
    simp [hcut]

/-- The failure of one phase makes no difference to the phase that does not rest on it. -/
theorem Runner.mix_eq_of_tag_failed :
    let context : FileContext := { path := "film.mkv", media := {} }
    let willing : Executor Unit := .pure "willing" fun _ => .ok {}
    let choosy : Executor Unit := .pure "choosy" fun call =>
      if call.phase = "tag" then .error (.internal "no tags") else .ok {}
    let final₁ := (Runner.runFile { policy := .siblings } willing context ()).result context.path
    let final₂ := (Runner.runFile { policy := .siblings } choosy context ()).result context.path
    final₁.outcome "tag" = .completed ∧ final₂.outcome "tag" = .failed ∧
      final₂.outcome "mix" = .completed ∧
      ∀ result₁ result₂, final₁.phase? "mix" = some result₁ →
        final₂.phase? "mix" = some result₂ → result₁ = result₂ := by
  intro context willing choosy final₁ final₂
  have hfoundation : foundation ValidatedPolicy.siblings.phases "mix" ⊆
      {name | name ∈ ["mix", "cut"]} :=
    (isLeast_foundation _ "mix").2 ⟨by simp, ValidatedPolicy.closedUnderReferences_siblings⟩
  let mix : Phase :=
    { name := "mix", dependsOn := ["cut"], runIf := some ⟨.completed, "cut"⟩,
      onError := some .stop }
  have hmix : mix ∈ ValidatedPolicy.siblings.phases := by
    simp [mix, ValidatedPolicy.siblings]
  refine ⟨rfl, rfl, rfl, ?_⟩
  refine (result_eq_of_answers_alike (Executor.answers_pure _ _) (Executor.answers_pure _ _)
    context () () hmix ?_).1
  intro q _ hq
  have hname : q.name ∈ ["mix", "cut"] := hfoundation hq
  have htag : q.name ≠ "tag" := by
    intro htag
    simp [htag] at hname
  exact (if_neg htag).symm

end Runs

end MediaPhases
