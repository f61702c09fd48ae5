import MediaPhases.Proofs.Outcome.Summary
import MediaPhases.Proofs.Outcome.Tracker

/-!
# Histories of trackers

A tracker serves a run by answering calls to record results.  A call is accepted when its result
is final and no call for the same phase has been accepted before; every other call is refused and
changes neither the list of the tracker nor its index.  So after any calls the two are in step, the
list holds exactly the accepted results, in the order of the calls and one for each phase, and
everything the tracker can be asked follows from them.
-/

namespace MediaPhases

namespace Tracker

/-- The results that a tracker accepts out of calls to record them one after the other. -/
def acceptedFrom (t : Tracker) : List PhaseResult → List PhaseResult
  | [] => []
  | r :: rest =>
    match (record r).run t with
    | .ok _ t' => r :: t'.acceptedFrom rest
    | .error _ t' => t'.acceptedFrom rest

/-- The results that a new tracker accepts. -/
def accepted (calls : List PhaseResult) : List PhaseResult :=
  acceptedFrom {} calls

/-- List and index are in step, and every result is final. -/
structure IsSound (t : Tracker) : Prop where
  inStep : t.InStep
  isFinal : ∀ r ∈ t.results, r.outcome.isFinal = true

/-- Whatever a tracker can be asked, it answers from the accepted results. -/
structure Shows (t : Tracker) (accepted : List PhaseResult) : Prop where
  inStep : t.InStep
  results : t.results = accepted
  nodup : (accepted.map (·.phase)).Nodup
  size : t.size = accepted.length
  tallies : Tallies t.summary accepted
  recorded : ∀ r ∈ accepted, t.get? r.phase = some r ∧ t.outcome r.phase = r.outcome ∧
    (t.wasModified r.phase = true ↔ r.outcome = .completed ∧ r.fileModified = true)
  unrecorded : ∀ name, name ∉ accepted.map (·.phase) →
    t.get? name = none ∧ t.outcome name = .pending ∧ t.wasModified name = false
  completed_of_wasModified : ∀ name, t.wasModified name = true → t.outcome name = .completed

variable {t t' : Tracker} {r : PhaseResult} {refusal : RecordRefusal}

/-! ## One call -/

theorem isSound_empty : IsSound {} where
  inStep := inStep_empty
  isFinal := by simp

theorem IsSound.recorded (h : t.IsSound) (r : PhaseResult) : (t.recorded r).IsSound := by
  refine ⟨h.inStep.recorded r, ?_⟩
  cases hrecord : (record r).run t with
  | error refusal t' =>
      rw [recorded_of_error hrecord]
      exact h.isFinal
  | ok u t' =>
      rw [recorded_of_ok hrecord]
      obtain ⟨hfinal, -, rfl⟩ := run_record_eq_ok_iff.mp hrecord
      intro q hq
      rcases List.mem_append.mp hq with hq | hq
      · exact h.isFinal q hq
      · rw [List.mem_singleton.mp hq]
        exact hfinal

/-- What a refusal says when the result is final: an earlier result of the phase is in the way. -/
theorem InStep.exists_first_of_refusal (h : t.InStep)
    (hrefused : (record r).run t = .error refusal t') (hfinal : r.outcome.isFinal = true) :
    ∃ first ∈ t.results, first.phase = r.phase ∧
      refusal = .alreadyRecorded r.phase first.outcome := by
  rcases (run_record_eq_error_iff.mp hrefused).2 with ⟨hpending, -⟩ | ⟨-, i, hindex, rfl⟩
  · rw [hfinal] at hpending
    cases hpending
  · obtain ⟨first, hfirst, hphase⟩ := (h r.phase i).mp hindex
    refine ⟨first, List.mem_of_getElem? hfirst, hphase, ?_⟩
    rw [outcomeAt, hfirst]

theorem refusal_of_not_final
    (hrefused : (record r).run t = .error refusal t') (hfinal : r.outcome.isFinal = false) :
    refusal = .pending r.phase := by
  rw [run_record_of_not_final hfinal] at hrefused
  cases hrefused
  rfl

/-! ## All calls -/

theorem results_foldl_recorded (calls : List PhaseResult) (t : Tracker) :
    (calls.foldl recorded t).results = t.results ++ t.acceptedFrom calls := by
  induction calls generalizing t with
  | nil => exact (List.append_nil _).symm
  | cons r rest ih =>
      rw [List.foldl_cons, ih, acceptedFrom]
      cases hrecord : (record r).run t with
      | error refusal t' =>
          rw [recorded_of_error hrecord]
          obtain ⟨rfl, -⟩ := run_record_eq_error_iff.mp hrecord
          rfl
      | ok u t' =>
          rw [recorded_of_ok hrecord]
          obtain ⟨-, -, rfl⟩ := run_record_eq_ok_iff.mp hrecord
          exact List.append_assoc _ [r] _

theorem results_after (calls : List PhaseResult) : (after calls).results = accepted calls :=
  results_foldl_recorded calls {}

theorem isSound_after (calls : List PhaseResult) : (after calls).IsSound := by
  induction calls using List.reverseRecOn with
  | nil => exact isSound_empty
  | append_singleton front last ih =>
      rw [after_concat]
      exact ih.recorded last

theorem IsSound.shows (h : t.IsSound) : t.Shows t.results := by
  constructor
  case inStep => exact h.inStep
  case results => rfl
  case nodup => exact h.inStep.nodup
  case size => rfl
  case tallies => exact Summary.tallies_ofResults t.results
  case recorded =>
    intro r hr
    have hget := h.inStep.get?_of_mem hr
    refine ⟨hget, outcome_eq_of_get? hget, ?_⟩
    rw [wasModified_iff, hget]
    simp
  case unrecorded =>
    intro name hname
    have hget := h.inStep.get?_eq_none_iff.mpr hname
    refine ⟨hget, outcome_eq_pending hget, ?_⟩
    rw [wasModified, hget]
  case completed_of_wasModified =>
    intro name hmodified
    obtain ⟨r, hget, hcompleted, -⟩ := wasModified_iff.mp hmodified
    exact outcome_eq_completed_iff.mpr ⟨r, hget, hcompleted⟩

/-- After any calls list and index of a tracker are in step and show the accepted results.  It
accepts a further result exactly when that is final and the first one of its phase, and adds it;
refusing one, it stays as it is, list and index, and tells which of the two fails, and what was
accepted before if only that is in the way. -/
theorem shows_accepted (calls : List PhaseResult) :
    (after calls).Shows (accepted calls) ∧
      ∀ r, ((∃ t', (record r).run (after calls) = .ok () t') ↔
          r.outcome.isFinal = true ∧ ∀ q ∈ accepted calls, q.phase ≠ r.phase) ∧
        (∀ t', (record r).run (after calls) = .ok () t' →
          t' = after (calls ++ [r]) ∧ t'.results = accepted calls ++ [r]) ∧
        ∀ refusal t', (record r).run (after calls) = .error refusal t' →
          t' = after calls ∧ after (calls ++ [r]) = after calls ∧
          (r.outcome.isFinal = true → ∃ first ∈ accepted calls, first.phase = r.phase ∧
            refusal = .alreadyRecorded r.phase first.outcome) ∧
          (r.outcome.isFinal = false → refusal = .pending r.phase) := by
  have hinStep := inStep_after calls
  rw [← results_after]
  refine ⟨(isSound_after calls).shows, fun r => ⟨?_, ?_, ?_⟩⟩
  · constructor
    · rintro ⟨t', h⟩
      obtain ⟨hfinal, hnew, -⟩ := run_record_eq_ok_iff.mp h
      rw [hinStep.index_eq_none_iff] at hnew
      exact ⟨hfinal, fun q hq hphase => hnew (hphase ▸ List.mem_map_of_mem hq)⟩
    · rintro ⟨hfinal, hfirst⟩
      refine ⟨_, hinStep.run_record_of_fresh hfinal ?_⟩
      intro hmem
      obtain ⟨q, hq, hphase⟩ := List.mem_map.mp hmem
      exact hfirst q hq hphase
  · intro t' h
    rw [after_concat, recorded_of_ok h]
    obtain ⟨-, -, rfl⟩ := run_record_eq_ok_iff.mp h
    exact ⟨rfl, rfl⟩
  · intro refusal t' h
    rw [after_concat, recorded_of_error h]
    exact ⟨(run_record_eq_error_iff.mp h).1.symm, rfl, hinStep.exists_first_of_refusal h,
      refusal_of_not_final h⟩

/-- A second result of a phase, one that is not final, and a failure that tells of a modified
file. -/
def mixedCalls : List PhaseResult := [
  { phase := "cut", outcome := .completed, fileModified := true },
  { phase := "cut", outcome := .failed }, { phase := "mix", outcome := .pending },
  { phase := "tag", outcome := .failed, fileModified := true }]

theorem mixedCalls_shown :
    (after mixedCalls).results.map (·.phase) = ["cut", "tag"] ∧
      (after mixedCalls).wasModified "tag" = false ∧ (after mixedCalls).outcome "mix" = .pending ∧
      ¬∃ t', (record { phase := "cut", outcome := .skipped }).run (after mixedCalls) =
        .ok () t' := by
  obtain ⟨hshows, hnext⟩ := shows_accepted mixedCalls
  have haccepted : accepted mixedCalls = [
      { phase := "cut", outcome := .completed, fileModified := true },
      { phase := "tag", outcome := .failed, fileModified := true }] := by decide
  rw [haccepted] at hshows hnext
  have hmodified : (after mixedCalls).wasModified "tag" ≠ true := by
    rw [Ne, (hshows.recorded { phase := "tag", outcome := .failed, fileModified := true }
      (by simp)).2.2]
    simp
  refine ⟨by rw [hshows.results]; rfl, by simpa using hmodified,
    (hshows.unrecorded "mix" (by simp)).2.1, ?_⟩
  rw [(hnext _).1]
  simp

/-- A result that is not final is refused as such also when its phase has been recorded before;
the refusal does not name the outcome of that record. -/
theorem refusal_of_pending_names_no_outcome :
    let first : PhaseResult := { phase := "cut", outcome := .completed }
    let second : PhaseResult := { phase := "cut", outcome := .pending }
    first ∈ accepted [first] ∧
      ∃ refusal t', (record second).run (after [first]) = .error refusal t' ∧
        ∀ outcome, refusal ≠ .alreadyRecorded "cut" outcome := by
  intro first second
  exact ⟨by decide, .pending "cut", after [first], by rfl, fun outcome => by simp⟩

end Tracker

end MediaPhases
