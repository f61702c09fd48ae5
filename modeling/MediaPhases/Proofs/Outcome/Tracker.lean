import MediaPhases.Outcome.Tracker
import Mathlib.Data.List.Induction
import Mathlib.Data.List.Nodup

/-!
# What a tracker holds

A tracker keeps its results in a list and the place of each in an index, and a call to record a
result writes both.  The two are in step when the index leads from a name to a place exactly where
the result there is of the phase of that name.  They are so in a new tracker and after every call:
an accepted call adds a result behind the others and its place to the index, a refused one changes
neither.  While they are in step a phase is found exactly when one of the results is its own.
-/

namespace MediaPhases.Tracker

/-- The index leads from a name to a place exactly where the result there is of that phase. -/
def InStep (t : Tracker) : Prop :=
  ∀ name i, t.index.get? name = some i ↔ ∃ r, t.results[i]? = some r ∧ r.phase = name

/-- The tracker with one more result, and its place in the index. -/
def push (t : Tracker) (r : PhaseResult) : Tracker where
  results := t.results ++ [r]
  index := t.index.insert r.phase t.results.length

/-- A new tracker after calls. -/
def after (calls : List PhaseResult) : Tracker :=
  calls.foldl recorded {}

variable {t t' : Tracker} {name : String} {r : PhaseResult} {refusal : RecordRefusal} {i : ℕ}

/-! ## What a call does -/

theorem run_record_of_not_final (hfinal : r.outcome.isFinal = false) :
    (record r).run t = .error (.pending r.phase) t := by
  simp only [record, hfinal]
  rfl

theorem run_record_of_indexed
    (hfinal : r.outcome.isFinal = true) (hindex : t.index.get? r.phase = some i) :
    (record r).run t = .error (.alreadyRecorded r.phase (t.outcomeAt i)) t := by
  simp [record, hfinal, hindex]

theorem run_record_of_not_indexed
    (hfinal : r.outcome.isFinal = true) (hindex : t.index.get? r.phase = none) :
    (record r).run t = .ok () (t.push r) := by
  simp [record, hfinal, hindex, push]

/-- A call is accepted when the result is final and its phase is not in the index; it adds to the
list and to the index. -/
theorem run_record_eq_ok_iff :
    (record r).run t = .ok () t' ↔
      r.outcome.isFinal = true ∧ t.index.get? r.phase = none ∧ t.push r = t' := by
  by_cases hfinal : r.outcome.isFinal = true
  · cases hindex : t.index.get? r.phase with
    | none => simp [run_record_of_not_indexed hfinal hindex, hfinal]
    | some i => simp [run_record_of_indexed hfinal hindex]
  · rw [run_record_of_not_final (eq_false_of_ne_true hfinal)]
    simp [hfinal]

/-- A refused call changes nothing and tells what is wrong with the result: it is not final, or
else its phase is in the index. -/
theorem run_record_eq_error_iff :
    (record r).run t = .error refusal t' ↔
      t = t' ∧
        (r.outcome.isFinal = false ∧ .pending r.phase = refusal ∨
          r.outcome.isFinal = true ∧ ∃ i, t.index.get? r.phase = some i ∧
            .alreadyRecorded r.phase (t.outcomeAt i) = refusal) := by
  by_cases hfinal : r.outcome.isFinal = true
  · cases hindex : t.index.get? r.phase with
    | none => simp [run_record_of_not_indexed hfinal hindex, hfinal]
    | some i => simp [run_record_of_indexed hfinal hindex, hfinal, and_comm]
  · rw [run_record_of_not_final (eq_false_of_ne_true hfinal)]
    simp [hfinal, and_comm]

theorem recorded_of_ok (h : (record r).run t = .ok () t') : t.recorded r = t' := by
  rw [recorded, h]

theorem recorded_of_error (h : (record r).run t = .error refusal t') : t.recorded r = t := by
  rw [recorded, h]
  exact (run_record_eq_error_iff.mp h).1.symm

/-! ## List and index -/

theorem getElem?_push {q : PhaseResult} :
    (t.push r).results[i]? = some q ↔
      t.results[i]? = some q ∨ i = t.results.length ∧ r = q := by
  rw [push, List.getElem?_append]
  split
  · rename_i hlt
    simp [Nat.ne_of_lt hlt]
  · rename_i hge
    rw [List.getElem?_eq_none (Nat.le_of_not_lt hge), List.getElem?_singleton]
    have hplace : i - t.results.length = 0 ↔ i = t.results.length := by omega
    simp [hplace]

theorem inStep_empty : InStep {} := by
  intro name i
  constructor
  · intro h
    cases h
  · rintro ⟨r, hr, -⟩
    cases hr

/-- A result of a new phase and its place keep the two in step. -/
theorem InStep.push (h : t.InStep) (hnew : t.index.get? r.phase = none) : (t.push r).InStep := by
  intro name i
  simp only [getElem?_push]
  rw [Tracker.push, NameMap.get?_insert]
  by_cases hname : name = r.phase
  · rw [if_pos hname]
    constructor
    · intro hi
      exact ⟨r, Or.inr ⟨(Option.some.inj hi).symm, rfl⟩, hname.symm⟩
    · rintro ⟨q, hq | ⟨rfl, -⟩, hphase⟩
      · -- An earlier result of the phase would be in the index.
        have hi := (h name i).mpr ⟨q, hq, hphase⟩
        rw [hname, hnew] at hi
        cases hi
      · rfl
  · rw [if_neg hname, h name i]
    constructor
    · rintro ⟨q, hq, hphase⟩
      exact ⟨q, Or.inl hq, hphase⟩
    · rintro ⟨q, hq | ⟨-, rfl⟩, hphase⟩
      · exact ⟨q, hq, hphase⟩
      · exact absurd hphase.symm hname

/-- Every call, accepted or refused, keeps list and index in step. -/
theorem InStep.recorded (h : t.InStep) (r : PhaseResult) : (t.recorded r).InStep := by
  cases hrecord : (record r).run t with
  | error refusal t' =>
      rw [recorded_of_error hrecord]
      exact h
  | ok u t' =>
      rw [recorded_of_ok hrecord]
      obtain ⟨-, hnew, rfl⟩ := run_record_eq_ok_iff.mp hrecord
      exact h.push hnew

theorem after_concat (calls : List PhaseResult) (r : PhaseResult) :
    after (calls ++ [r]) = (after calls).recorded r := by
  rw [after, List.foldl_append]
  rfl

/-- List and index are in step after any calls. -/
theorem inStep_after (calls : List PhaseResult) : (after calls).InStep := by
  induction calls using List.reverseRecOn with
  | nil => exact inStep_empty
  | append_singleton front last ih =>
      rw [after_concat]
      exact ih.recorded last

/-! ## Look-ups -/

theorem get?_eq_some_iff :
    t.get? name = some r ↔ ∃ i, t.index.get? name = some i ∧ t.results[i]? = some r :=
  Option.bind_eq_some_iff

theorem mem_of_get? (h : t.get? name = some r) : r ∈ t.results := by
  obtain ⟨i, -, hr⟩ := get?_eq_some_iff.mp h
  exact List.mem_of_getElem? hr

theorem outcome_eq_of_get? (h : t.get? name = some r) : t.outcome name = r.outcome := by
  rw [outcome, h]

theorem outcome_eq_pending (h : t.get? name = none) : t.outcome name = .pending := by
  rw [outcome, h]

theorem outcome_congr (h : t.get? name = t'.get? name) : t.outcome name = t'.outcome name := by
  rw [outcome, h, outcome]

/-- A phase has completed when its result says so. -/
theorem outcome_eq_completed_iff :
    t.outcome name = .completed ↔ ∃ r, t.get? name = some r ∧ r.outcome = .completed := by
  rw [outcome]
  cases t.get? name with
  | none => simp
  | some r => simp

theorem wasModified_iff :
    t.wasModified name = true ↔
      ∃ r, t.get? name = some r ∧ r.outcome = .completed ∧ r.fileModified = true := by
  rw [wasModified]
  cases t.get? name with
  | none => simp
  | some r => simp

namespace InStep

theorem phase_of_get? (h : t.InStep) (hget : t.get? name = some r) : r.phase = name := by
  obtain ⟨i, hindex, hr⟩ := get?_eq_some_iff.mp hget
  obtain ⟨q, hq, hphase⟩ := (h name i).mp hindex
  rw [hr] at hq
  obtain rfl := Option.some.inj hq
  exact hphase

/-- Every result is the one found for its phase. -/
theorem get?_of_mem (h : t.InStep) (hr : r ∈ t.results) : t.get? r.phase = some r := by
  obtain ⟨i, hi⟩ := List.mem_iff_getElem?.mp hr
  exact get?_eq_some_iff.mpr ⟨i, (h r.phase i).mpr ⟨r, hi, rfl⟩, hi⟩

/-- No phase has two results, since the index would lead to both places. -/
theorem nodup (h : t.InStep) : (t.results.map (·.phase)).Nodup := by
  rw [List.nodup_iff_getElem?_ne_getElem?]
  intro i j hij hj hsame
  rw [List.length_map] at hj
  rw [List.getElem?_map, List.getElem?_map, List.getElem?_eq_getElem hj] at hsame
  obtain ⟨r, hr, hphase⟩ := Option.map_eq_some_iff.mp hsame
  have hfirst := (h _ i).mpr ⟨r, hr, hphase⟩
  have hsecond := (h _ j).mpr ⟨_, List.getElem?_eq_getElem hj, rfl⟩
  rw [hfirst] at hsecond
  exact Nat.ne_of_lt hij (Option.some.inj hsecond)

theorem get?_eq_none_iff (h : t.InStep) :
    t.get? name = none ↔ name ∉ t.results.map (·.phase) := by
  constructor
  · intro hget hmem
    obtain ⟨r, hr, rfl⟩ := List.mem_map.mp hmem
    rw [h.get?_of_mem hr] at hget
    cases hget
  · intro hname
    cases hget : t.get? name with
    | none => rfl
    | some r =>
        rw [← h.phase_of_get? hget] at hname
        exact absurd (List.mem_map_of_mem (mem_of_get? hget)) hname

theorem index_eq_none_iff (h : t.InStep) :
    t.index.get? name = none ↔ name ∉ t.results.map (·.phase) := by
  rw [← h.get?_eq_none_iff, get?]
  cases hindex : t.index.get? name with
  | none => simp
  | some i =>
      obtain ⟨r, hr, -⟩ := (h name i).mp hindex
      simp [hr]

/-- The index finds what a search of the list finds. -/
theorem get?_eq_find? (h : t.InStep) (name : String) :
    t.get? name = t.results.find? (·.phase == name) := by
  cases hfound : t.results.find? (·.phase == name) with
  | none =>
      rw [h.get?_eq_none_iff]
      simpa [List.find?_eq_none] using hfound
  | some r =>
      have hphase : r.phase = name := by simpa using List.find?_some hfound
      rw [← hphase]
      exact h.get?_of_mem (List.mem_of_find?_eq_some hfound)

/-- Where all outcomes are final, a phase is pending when it has not been recorded. -/
theorem outcome_eq_pending_iff
    (h : t.InStep) (hfinal : ∀ r ∈ t.results, r.outcome.isFinal = true) :
    t.outcome name = .pending ↔ name ∉ t.results.map (·.phase) := by
  rw [← h.get?_eq_none_iff]
  constructor
  · intro hpending
    cases hget : t.get? name with
    | none => rfl
    | some r =>
        have hr := hfinal r (mem_of_get? hget)
        rw [outcome_eq_of_get? hget] at hpending
        rw [hpending] at hr
        cases hr
  · exact outcome_eq_pending

/-! ## The first result of a phase -/

/-- It is accepted, if its outcome is final. -/
theorem run_record_of_fresh (h : t.InStep)
    (hfinal : r.outcome.isFinal = true) (hfresh : r.phase ∉ t.results.map (·.phase)) :
    (record r).run t = .ok () (t.push r) :=
  run_record_of_not_indexed hfinal (h.index_eq_none_iff.mpr hfresh)

theorem recorded_of_fresh (h : t.InStep)
    (hfinal : r.outcome.isFinal = true) (hfresh : r.phase ∉ t.results.map (·.phase)) :
    t.recorded r = t.push r :=
  recorded_of_ok (h.run_record_of_fresh hfinal hfresh)

/-- After a call with a final result, that one is found where nothing was found before. -/
theorem get?_recorded (h : t.InStep) (hfinal : r.outcome.isFinal = true) (name : String) :
    (t.recorded r).get? name = (t.get? name).or ([r].find? (·.phase == name)) := by
  by_cases hfresh : r.phase ∈ t.results.map (·.phase)
  · obtain ⟨q, hq, hphase⟩ := List.mem_map.mp hfresh
    have hget := h.get?_of_mem hq
    have hindex : t.index.get? r.phase ≠ none := by
      rw [Ne, h.index_eq_none_iff, not_not]
      exact hfresh
    obtain ⟨i, hi⟩ := Option.ne_none_iff_exists'.mp hindex
    rw [recorded_of_error (run_record_of_indexed hfinal hi)]
    by_cases hname : r.phase = name
    · rw [← hname, ← hphase, hget, Option.some_or]
    · simp [hname]
  · have hpush := h.push (h.index_eq_none_iff.mpr hfresh)
    rw [h.recorded_of_fresh hfinal hfresh, hpush.get?_eq_find?, h.get?_eq_find?]
    exact List.find?_append

end InStep

/-! ## Final results -/

/-- After calls with final results the first one of each phase is found. -/
theorem get?_after {calls : List PhaseResult}
    (hfinal : ∀ r ∈ calls, r.outcome.isFinal = true) (name : String) :
    (after calls).get? name = calls.find? (·.phase == name) := by
  induction calls using List.reverseRecOn with
  | nil => rfl
  | append_singleton front last ih =>
      have hfront : ∀ r ∈ front, r.outcome.isFinal = true := fun r hr =>
        hfinal r (List.mem_append_left _ hr)
      have hlast := hfinal last (List.mem_append_right _ List.mem_cons_self)
      rw [after_concat, (inStep_after front).get?_recorded hlast, ih hfront, List.find?_append]

end MediaPhases.Tracker
