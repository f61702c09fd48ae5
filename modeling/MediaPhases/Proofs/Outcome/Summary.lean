import MediaPhases.Outcome.Basic
import Mathlib.Data.List.Induction

/-!
# What a summary counts

A summary is built up result by result.  Each of its counts is the number of results of one kind,
and where every outcome is final the kinds leave no result out.
-/

namespace MediaPhases

/-- The counts of a summary are those of a list of results. -/
structure Tallies (s : Summary) (results : List PhaseResult) : Prop where
  completed : s.completed = results.countP (·.outcome = .completed)
  failed : s.failed = results.countP (·.outcome = .failed)
  skipped : s.skipped = results.countP (·.outcome = .skipped)
  modified : s.modified =
    results.countP fun result => result.outcome = .completed ∧ result.fileModified = true

theorem Tallies.add
    {s : Summary} {results : List PhaseResult} (h : Tallies s results) (result : PhaseResult) :
    Tallies (s.add result) (results ++ [result]) := by
  constructor
  case completed =>
    rw [List.countP_append, ← h.completed]
    cases houtcome : result.outcome <;> simp [Summary.add, houtcome]
  case failed =>
    rw [List.countP_append, ← h.failed]
    cases houtcome : result.outcome <;> simp [Summary.add, houtcome]
  case skipped =>
    rw [List.countP_append, ← h.skipped]
    cases houtcome : result.outcome <;> simp [Summary.add, houtcome]
  case modified =>
    rw [List.countP_append, ← h.modified]
    cases houtcome : result.outcome with
    | completed =>
        by_cases hmodified : result.fileModified = true
        · simp [Summary.add, houtcome, hmodified]
        · simp [Summary.add, houtcome, hmodified]
    | pending => simp [Summary.add, houtcome]
    | failed => simp [Summary.add, houtcome]
    | skipped => simp [Summary.add, houtcome]

namespace Summary

theorem ofResults_concat (results : List PhaseResult) (result : PhaseResult) :
    ofResults (results ++ [result]) = (ofResults results).add result := by
  rw [ofResults, List.foldl_append]
  rfl

theorem tallies_ofResults (results : List PhaseResult) : Tallies (ofResults results) results := by
  induction results using List.reverseRecOn with
  | nil => exact ⟨rfl, rfl, rfl, rfl⟩
  | append_singleton front last ih =>
      rw [ofResults_concat]
      exact ih.add last

theorem total_add
    {s : Summary} {result : PhaseResult} (hfinal : result.outcome.isFinal = true) :
    (s.add result).total = s.total + 1 := by
  cases houtcome : result.outcome with
  | pending =>
      rw [houtcome] at hfinal
      cases hfinal
  | completed =>
      simp only [add, houtcome, total]
      omega
  | failed =>
      simp only [add, houtcome, total]
      omega
  | skipped =>
      simp only [add, houtcome, total]
      omega

/-- No result with a final outcome is left out of the counts. -/
theorem total_ofResults
    {results : List PhaseResult} (hfinal : ∀ result ∈ results, result.outcome.isFinal = true) :
    (ofResults results).total = results.length := by
  induction results using List.reverseRecOn with
  | nil => rfl
  | append_singleton front last ih =>
      have hfront : (ofResults front).total = front.length :=
        ih fun result hresult => hfinal result (List.mem_append_left _ hresult)
      have hlast : last.outcome.isFinal = true := hfinal last (by simp)
      rw [ofResults_concat, total_add hlast, hfront, List.length_append, List.length_singleton]

end Summary

end MediaPhases
