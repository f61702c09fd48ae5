import MediaPhases.Engine.Schedule
import Mathlib.Algebra.GroupWithZero.Nat
import Mathlib.Data.List.Basic

/-!
# Courses of a batch

A batch takes its course event by event: files are started in order while the window has room,
finish in any order, and come out in order.  Whatever the course, the files that were looked at are
the first ones, and among them those that were really started stand before those that were passed
over.  A batch is stopped exactly by a failure among the files that have finished, and by then it
has started fewer files behind the failure than the window holds.  Every course comes to an end, and
then every file has come out.
-/

namespace MediaPhases

/-- How many events a file in the window is still to have. -/
def Flight.remaining : Flight → ℕ
  | .running => 2
  | .landed _ => 1

namespace Schedule

variable {stops : Bool} {workers : ℕ} {s t : Schedule} {event : ScheduleEvent}

/-! ## Events -/

/-- The files that have been looked at, in order: those that have come out, then the window. -/
def files (s : Schedule) : List (String × Flight) :=
  s.emitted.map (fun f => (f.1, .landed f.2)) ++ s.window

theorem windowSize_pos : 0 < windowSize workers :=
  Nat.lt_of_lt_of_le Nat.zero_lt_one (Nat.le_max_right workers 1)

theorem length_files : s.files.length = s.emitted.length + s.window.length := by
  rw [files, List.length_append, List.length_map]

/-- A file that stands in front of the window has come out. -/
theorem getElem?_files_of_lt {i : ℕ} (hi : i < s.emitted.length) :
    ∃ path result, s.files[i]? = some (path, .landed result) := by
  have hmap : i < (s.emitted.map fun f => (f.1, Flight.landed f.2)).length := by
    rwa [List.length_map]
  refine ⟨s.emitted[i].1, s.emitted[i].2, ?_⟩
  rw [files, List.getElem?_append_left hmap, List.getElem?_map, List.getElem?_eq_getElem hi]
  rfl

theorem getElem?_files_window {position : ℕ} :
    s.files[s.emitted.length + position]? = s.window[position]? := by
  have hlength : (s.emitted.map fun f => (f.1, Flight.landed f.2)).length = s.emitted.length :=
    List.length_map _
  rw [files, List.getElem?_append_right (by omega), hlength, Nat.add_sub_cancel_left]

theorem of_step_start (h : s.step stops workers .start = some t) :
    ∃ path rest, s.waiting = path :: rest ∧ s.window.length < windowSize workers ∧
      t.waiting = rest ∧ t.emitted = s.emitted ∧ t.isHalted = s.isHalted ∧
      t.window = s.window ++ [(path, if s.isHalted then .landed none else .running)] := by
  cases hwaiting : s.waiting with
  | nil => simp [step, hwaiting] at h
  | cons path rest =>
      by_cases hroom : s.window.length < windowSize workers
      · simp only [step, hwaiting, hroom, if_true, Option.some.injEq] at h
        subst h
        exact ⟨path, rest, rfl, hroom, rfl, rfl, rfl, rfl⟩
      · simp [step, hwaiting, hroom] at h

theorem of_step_finish
    {position : ℕ} {result : FileResult}
    (h : s.step stops workers (.finish position result) = some t) :
    ∃ path, s.window[position]? = some (path, .running) ∧
      t.waiting = s.waiting ∧ t.emitted = s.emitted ∧
      t.isHalted = (s.isHalted || (stops && !result.success)) ∧
      t.window = s.window.set position (path, .landed (some result)) := by
  rw [step] at h
  split at h
  · rename_i path hposition
    cases h
    exact ⟨path, hposition, rfl, rfl, rfl, rfl⟩
  · cases h

theorem of_step_emit (h : s.step stops workers .emit = some t) :
    ∃ path result rest, s.window = (path, .landed result) :: rest ∧
      t.waiting = s.waiting ∧ t.emitted = s.emitted ++ [(path, result)] ∧
      t.isHalted = s.isHalted ∧ t.window = rest := by
  rw [step] at h
  split at h
  · rename_i path result rest hwindow
    cases h
    exact ⟨path, result, rest, hwindow, rfl, rfl, rfl, rfl⟩
  · cases h

theorem files_of_start {f : String × Flight} (hemitted : t.emitted = s.emitted)
    (hwindow : t.window = s.window ++ [f]) : t.files = s.files ++ [f] := by
  rw [files, files, hemitted, hwindow, List.append_assoc]

theorem files_of_finish {position : ℕ} {f : String × Flight} (hemitted : t.emitted = s.emitted)
    (hwindow : t.window = s.window.set position f) :
    t.files = s.files.set (s.emitted.length + position) f := by
  have hlength : (s.emitted.map fun f => (f.1, Flight.landed f.2)).length = s.emitted.length :=
    List.length_map _
  rw [files, files, hemitted, hwindow, List.set_append_right _ _ (by omega), hlength,
    Nat.add_sub_cancel_left]

theorem files_of_emit {path : String} {result : Option FileResult} {rest : List (String × Flight)}
    (hwindow : s.window = (path, .landed result) :: rest)
    (hemitted : t.emitted = s.emitted ++ [(path, result)]) (hrest : t.window = rest) :
    t.files = s.files := by
  rw [files, files, hemitted, hrest, hwindow, List.map_append, List.append_assoc]
  rfl

/-! ## Files that have finished -/

/-- A file has finished, and was not passed over. -/
def FinishedWith (s : Schedule) (i : ℕ) (path : String) (result : FileResult) : Prop :=
  s.files[i]? = some (path, .landed (some result))

theorem getElem?_files_of_start
    {i : ℕ} {f g : String × Flight} (hfiles : t.files = s.files ++ [f]) :
    t.files[i]? = some g ↔ s.files[i]? = some g ∨ i = s.files.length ∧ g = f := by
  rw [hfiles]
  by_cases hi : i < s.files.length
  · rw [List.getElem?_append_left hi]
    constructor
    · exact Or.inl
    · rintro (hold | ⟨rfl, -⟩)
      · exact hold
      · exact absurd hi (Nat.lt_irrefl _)
  · have hle : s.files.length ≤ i := Nat.le_of_not_lt hi
    rw [List.getElem?_append_right hle, List.getElem?_eq_none hle, List.getElem?_singleton]
    by_cases heq : i = s.files.length
    · simp [heq, eq_comm]
    · have hsub : i - s.files.length ≠ 0 := by omega
      simp [heq, hsub]

theorem finishedWith_of_start
    {i : ℕ} {path : String} {result : FileResult} {f : String × Flight}
    (hf : ∀ landed, f.2 ≠ .landed (some landed)) (hfiles : t.files = s.files ++ [f]) :
    t.FinishedWith i path result ↔ s.FinishedWith i path result := by
  rw [FinishedWith, getElem?_files_of_start hfiles]
  constructor
  · rintro (hold | ⟨-, rfl⟩)
    · exact hold
    · exact absurd rfl (hf result)
  · exact Or.inl

theorem finishedWith_of_finish
    {i n : ℕ} {path name : String} {result landed : FileResult}
    (hrunning : s.files[n]? = some (name, .running))
    (hfiles : t.files = s.files.set n (name, .landed (some landed))) :
    t.FinishedWith i path result ↔
      s.FinishedWith i path result ∨ i = n ∧ path = name ∧ result = landed := by
  have hn : n < s.files.length := (List.getElem?_eq_some_iff.mp hrunning).1
  rw [FinishedWith, FinishedWith, hfiles]
  by_cases hi : n = i
  · subst hi
    rw [List.getElem?_set_self hn, hrunning]
    simp [eq_comm]
  · rw [List.getElem?_set_ne hi]
    constructor
    · exact Or.inl
    · rintro (h | ⟨rfl, -⟩)
      · exact h
      · exact absurd rfl hi

/-! ## What every course preserves -/

/-- A file that finishes does so with a result that it can have. -/
def Allows (can : String → FileResult → Prop) (s : Schedule) : ScheduleEvent → Prop
  | .finish position result =>
      ∀ path flight, s.window[position]? = some (path, flight) → can path result
  | .start => True
  | .emit => True

/-- What holds throughout a batch, of whose files the first ones were started. -/
structure Invariant
    (stops : Bool) (workers : ℕ) (can : String → FileResult → Prop) (paths : List String)
    (started : ℕ) (s : Schedule) : Prop where
  accounted : s.files.map Prod.fst ++ s.waiting = paths
  started_le : started ≤ s.files.length
  /-- The files behind those that were started have been passed over. -/
  passed_iff : ∀ i path flight, s.files[i]? = some (path, flight) →
    (flight = .landed none ↔ started ≤ i)
  goesOn : s.isHalted = false → started = s.files.length
  given : ∀ i path result, s.FinishedWith i path result → can path result
  halted_iff : s.isHalted = true ↔
    stops = true ∧ ∃ i path result, s.FinishedWith i path result ∧ result.success = false
  /-- When a file was started, all files had finished that the window cannot hold along with it, and
  none of them had stopped the batch. -/
  behind : ∀ i, i + windowSize workers < started →
    ∃ path result, s.FinishedWith i path result ∧ (stops = true → result.success = true)

namespace Invariant

variable {can : String → FileResult → Prop} {paths : List String} {started : ℕ}

theorem initial : Invariant stops workers can paths 0 (.initial paths) where
  accounted := rfl
  started_le := Nat.zero_le _
  passed_iff := by simp [Schedule.initial, files]
  goesOn := fun _ => rfl
  given := by simp [Schedule.initial, files, FinishedWith]
  halted_iff := by simp [Schedule.initial, files, FinishedWith]
  behind := fun i hi => absurd hi (Nat.not_lt_zero _)

/-- A file that has come out of a batch that goes on was started, and has not failed if that would
have stopped the batch. -/
theorem finishedWith_of_lt
    (h : Invariant stops workers can paths started s) (hgoesOn : s.isHalted = false) {i : ℕ}
    (hi : i < s.emitted.length) :
    ∃ path result, s.FinishedWith i path result ∧ (stops = true → result.success = true) := by
  obtain ⟨path, landed, hfile⟩ := getElem?_files_of_lt hi
  have hstarted : i < started := by
    have hlength := length_files (s := s)
    have hall := h.goesOn hgoesOn
    omega
  cases landed with
  | none =>
      have hle := (h.passed_iff i path _ hfile).mp rfl
      omega
  | some result =>
      refine ⟨path, result, hfile, fun hstops => ?_⟩
      by_contra hfailed
      have hhalted := h.halted_iff.mpr ⟨hstops, i, path, result, hfile, by simpa using hfailed⟩
      rw [hgoesOn] at hhalted
      cases hhalted

/-- Starting a file, or passing it over if the batch has been stopped. -/
theorem start
    (h : Invariant stops workers can paths started s)
    (hstep : s.step stops workers .start = some t) :
    Invariant stops workers can paths (if s.isHalted then started else started + 1) t := by
  obtain ⟨name, rest, hwaiting, hroom, hrest, hemitted, hhalted, hwindow⟩ := of_step_start hstep
  have hfiles := files_of_start hemitted hwindow
  have hlength : t.files.length = s.files.length + 1 := by rw [hfiles, List.length_append]; rfl
  have hfinished : ∀ i path result,
      t.FinishedWith i path result ↔ s.FinishedWith i path result := by
    intro i path result
    refine finishedWith_of_start (fun landed => ?_) hfiles
    cases s.isHalted <;> simp
  have hle := h.started_le
  constructor
  case accounted =>
    rw [hfiles, hrest, List.map_append, List.append_assoc, ← h.accounted, hwaiting]
    rfl
  case started_le =>
    rw [hlength]
    split <;> omega
  case passed_iff =>
    intro i path flight hfile
    rcases (getElem?_files_of_start hfiles).mp hfile with hold | ⟨rfl, hnew⟩
    · have hi := (List.getElem?_eq_some_iff.mp hold).1
      rw [h.passed_iff i path flight hold]
      cases hgoesOn : s.isHalted with
      | true => rfl
      | false =>
          have hall := h.goesOn hgoesOn
          simp only [Bool.false_eq_true, if_false]
          omega
    · cases hnew
      cases hgoesOn : s.isHalted with
      | true => exact iff_of_true rfl hle
      | false =>
          have hall := h.goesOn hgoesOn
          refine iff_of_false (by simp) ?_
          simp only [Bool.false_eq_true, if_false]
          omega
  case goesOn =>
    intro hgoesOn
    rw [hhalted] at hgoesOn
    rw [hgoesOn, hlength, h.goesOn hgoesOn]
    rfl
  case given =>
    intro i path result hresult
    exact h.given i path result ((hfinished i path result).mp hresult)
  case halted_iff =>
    simp only [hhalted, hfinished]
    exact h.halted_iff
  case behind =>
    intro i hi
    simp only [hfinished]
    cases hgoesOn : s.isHalted with
    | true =>
        rw [hgoesOn] at hi
        exact h.behind i hi
    | false =>
        -- The window has room, so the files that it cannot hold along with this one are out.
        have hall := h.goesOn hgoesOn
        rw [hgoesOn, if_neg Bool.false_ne_true] at hi
        rw [length_files] at hall
        exact h.finishedWith_of_lt hgoesOn (by omega)

theorem finish
    (h : Invariant stops workers can paths started s) {position : ℕ} {result : FileResult}
    (hallowed : s.Allows can (.finish position result))
    (hstep : s.step stops workers (.finish position result) = some t) :
    Invariant stops workers can paths started t := by
  obtain ⟨name, hposition, hwaiting, hemitted, hhalted, hwindow⟩ := of_step_finish hstep
  have hfiles := files_of_finish hemitted hwindow
  have hrunning : s.files[s.emitted.length + position]? = some (name, .running) :=
    getElem?_files_window.trans hposition
  have hlength : t.files.length = s.files.length := by rw [hfiles, List.length_set]
  have hfinished : ∀ i path landed, t.FinishedWith i path landed ↔
      s.FinishedWith i path landed ∨
        i = s.emitted.length + position ∧ path = name ∧ landed = result :=
    fun i path landed => finishedWith_of_finish hrunning hfiles
  have hkept : ∀ i path landed, s.FinishedWith i path landed → t.FinishedWith i path landed :=
    fun i path landed hold => (hfinished i path landed).mpr (Or.inl hold)
  constructor
  case accounted =>
    obtain ⟨hlt, hfile⟩ := List.getElem?_eq_some_iff.mp hrunning
    have hlt' : s.emitted.length + position < (s.files.map Prod.fst).length := by
      rwa [List.length_map]
    have hname : (s.files.map Prod.fst)[s.emitted.length + position] = name := by
      rw [List.getElem_map, hfile]
    rw [hfiles, hwaiting, List.map_set]
    change (s.files.map Prod.fst).set _ name ++ s.waiting = paths
    rw [← hname, List.set_getElem_self hlt']
    exact h.accounted
  case started_le =>
    rw [hlength]
    exact h.started_le
  case passed_iff =>
    intro i path flight hfile
    rw [hfiles] at hfile
    by_cases hi : s.emitted.length + position = i
    · subst hi
      rw [List.getElem?_set_self (List.getElem?_eq_some_iff.mp hrunning).1] at hfile
      cases hfile
      rw [← h.passed_iff _ _ _ hrunning]
      simp
    · rw [List.getElem?_set_ne hi] at hfile
      exact h.passed_iff i path flight hfile
  case goesOn =>
    intro hnot
    rw [hlength]
    refine h.goesOn ?_
    rw [hhalted, Bool.or_eq_false_iff] at hnot
    exact hnot.1
  case given =>
    intro i path landed hlanded
    rcases (hfinished i path landed).mp hlanded with hold | ⟨-, rfl, rfl⟩
    · exact h.given i path landed hold
    · exact hallowed _ _ hposition
  case halted_iff =>
    rw [hhalted, Bool.or_eq_true, h.halted_iff, Bool.and_eq_true, Bool.not_eq_true']
    constructor
    · rintro (⟨hstops, i, path, landed, hold, hfailed⟩ | ⟨hstops, hfailed⟩)
      · exact ⟨hstops, i, path, landed, hkept i path landed hold, hfailed⟩
      · exact ⟨hstops, _, _, _, (hfinished _ _ _).mpr (Or.inr ⟨rfl, rfl, rfl⟩), hfailed⟩
    · rintro ⟨hstops, i, path, landed, hlanded, hfailed⟩
      rcases (hfinished i path landed).mp hlanded with hold | ⟨-, -, rfl⟩
      · exact Or.inl ⟨hstops, i, path, landed, hold, hfailed⟩
      · exact Or.inr ⟨hstops, hfailed⟩
  case behind =>
    intro i hi
    obtain ⟨path, landed, hold, hsuccess⟩ := h.behind i hi
    exact ⟨path, landed, hkept i path landed hold, hsuccess⟩

theorem emit
    (h : Invariant stops workers can paths started s)
    (hstep : s.step stops workers .emit = some t) :
    Invariant stops workers can paths started t := by
  obtain ⟨path, result, rest, hwindow, hwaiting, hemitted, hhalted, hrest⟩ := of_step_emit hstep
  have hfiles : t.files = s.files := files_of_emit hwindow hemitted hrest
  constructor
  case accounted =>
    rw [hfiles, hwaiting]
    exact h.accounted
  case started_le =>
    rw [hfiles]
    exact h.started_le
  case passed_iff =>
    rw [hfiles]
    exact h.passed_iff
  case goesOn =>
    rw [hfiles, hhalted]
    exact h.goesOn
  case given =>
    simp only [FinishedWith, hfiles]
    exact h.given
  case halted_iff =>
    simp only [FinishedWith, hfiles, hhalted]
    exact h.halted_iff
  case behind =>
    simp only [FinishedWith, hfiles]
    exact h.behind

theorem step
    (h : Invariant stops workers can paths started s) (hallowed : s.Allows can event)
    (hstep : s.step stops workers event = some t) :
    ∃ started', Invariant stops workers can paths started' t := by
  cases event with
  | start => exact ⟨_, h.start hstep⟩
  | finish position result => exact ⟨started, h.finish hallowed hstep⟩
  | emit => exact ⟨started, h.emit hstep⟩

end Invariant

/-! ## Courses -/

/-- The courses that a batch can take from one state to another, in which each file that finishes
has a result that it can have. -/
inductive Course (stops : Bool) (workers : ℕ) (can : String → FileResult → Prop) :
    Schedule → List ScheduleEvent → Schedule → Prop where
  | nil {s : Schedule} : Course stops workers can s [] s
  | cons {s t u : Schedule} {event : ScheduleEvent} {rest : List ScheduleEvent}
      (hallowed : s.Allows can event) (hstep : s.step stops workers event = some t)
      (hrest : Course stops workers can t rest u) : Course stops workers can s (event :: rest) u

theorem isComplete_iff : s.isComplete = true ↔ s.waiting = [] ∧ s.window = [] := by
  rw [isComplete, Bool.and_eq_true, List.isEmpty_iff, List.isEmpty_iff]

variable (stops workers) in
/-- A batch goes on until it is complete. -/
theorem exists_course_of_not_isComplete
    {can : String → FileResult → Prop} (hcan : ∀ path, ∃ result, can path result)
    (hincomplete : s.isComplete = false) :
    ∃ event t, Course stops workers can s [event] t := by
  cases hwindow : s.window with
  | nil =>
      cases hwaiting : s.waiting with
      | nil =>
          rw [isComplete_iff.mpr ⟨hwaiting, hwindow⟩] at hincomplete
          cases hincomplete
      | cons path rest =>
          have hroom : s.window.length < windowSize workers := by
            rw [hwindow]
            exact windowSize_pos
          exact ⟨.start, _, .cons trivial (by rw [step, hwaiting]; exact if_pos hroom) .nil⟩
  | cons first rest =>
      obtain ⟨path, flight⟩ := first
      cases flight with
      | running =>
          obtain ⟨result, hresult⟩ := hcan path
          refine ⟨.finish 0 result, _, .cons ?_ (by rw [step, hwindow]; rfl) .nil⟩
          intro name flight hposition
          rw [hwindow] at hposition
          cases hposition
          exact hresult
      | landed result => exact ⟨.emit, _, .cons trivial (by rw [step, hwindow]) .nil⟩

/-! ## Every course comes to an end -/

theorem remaining_eq :
    s.remaining = 3 * s.waiting.length + (s.window.map (·.2.remaining)).sum := by
  rw [remaining]
  induction s.window with
  | nil => rfl
  | cons f rest ih =>
      rw [List.foldr_cons, ih, List.map_cons, List.sum_cons]
      obtain ⟨path, flight⟩ := f
      cases flight with
      | running =>
          simp only [Flight.remaining]
          omega
      | landed result =>
          simp only [Flight.remaining]
          omega

/-- Every event leaves less to be done. -/
theorem remaining_lt (h : s.step stops workers event = some t) : t.remaining < s.remaining := by
  rw [remaining_eq, remaining_eq]
  cases event with
  | start =>
      obtain ⟨path, rest, hwaiting, -, hrest, -, -, hwindow⟩ := of_step_start h
      have hflight : Flight.remaining (if s.isHalted then .landed none else .running) ≤ 2 := by
        cases s.isHalted <;> simp [Flight.remaining]
      rw [hwaiting, hrest, hwindow, List.map_append, List.sum_append, List.length_cons]
      simp only [List.map_cons, List.map_nil, List.sum_singleton]
      omega
  | finish position result =>
      obtain ⟨path, hposition, hwaiting, -, -, hwindow⟩ := of_step_finish h
      obtain ⟨hlt, hfile⟩ := List.getElem?_eq_some_iff.mp hposition
      have hwindow' : s.window =
          s.window.take position ++ (path, .running) :: s.window.drop (position + 1) := by
        rw [← hfile, ← List.drop_eq_getElem_cons hlt, List.take_append_drop]
      rw [hwaiting, hwindow, List.set_eq_take_append_cons_drop, if_pos hlt]
      conv_rhs => rw [hwindow']
      simp only [List.map_append, List.map_cons, List.sum_append, List.sum_cons, Flight.remaining]
      omega
  | emit =>
      obtain ⟨path, result, rest, hwindow, hwaiting, -, -, hrest⟩ := of_step_emit h
      rw [hwaiting, hrest, hwindow, List.map_cons, List.sum_cons]
      simp only [Flight.remaining]
      omega

theorem remaining_initial (paths : List String) : (initial paths).remaining = 3 * paths.length := by
  rw [remaining_eq]
  rfl

namespace Course

variable {can : String → FileResult → Prop} {events : List ScheduleEvent}

theorem length_add_remaining_le (h : Course stops workers can s events t) :
    events.length + t.remaining ≤ s.remaining := by
  induction h with
  | nil => simp
  | cons _ hstep _ ih =>
      have hless := remaining_lt hstep
      rw [List.length_cons]
      omega

/-- What holds throughout a batch holds after every course. -/
theorem invariant
    {paths : List String} {started : ℕ} (h : Course stops workers can s events t)
    (hinvariant : Invariant stops workers can paths started s) :
    ∃ started', Invariant stops workers can paths started' t := by
  induction h generalizing started with
  | nil => exact ⟨started, hinvariant⟩
  | cons hallowed hstep _ ih =>
      obtain ⟨started', hnext⟩ := hinvariant.step hallowed hstep
      exact ih hnext

end Course

/-- Where a file can have any result, the courses are the runs of the schedule. -/
theorem run_eq_some_iff {events : List ScheduleEvent} :
    run stops workers events s = some t ↔ Course stops workers (fun _ _ => True) s events t := by
  constructor
  · intro h
    induction events generalizing s with
    | nil =>
        cases h
        exact .nil
    | cons event rest ih =>
        rw [run, Option.bind_eq_some_iff] at h
        obtain ⟨next, hstep, hrest⟩ := h
        refine .cons ?_ hstep (ih hrest)
        cases event <;> simp [Allows]
  · intro h
    induction h with
    | nil => rfl
    | cons _ hstep _ ih => rw [run, hstep, Option.bind_some, ih]

variable (stops workers) in
/-- A batch can always be taken to its end. -/
theorem exists_course_isComplete
    {can : String → FileResult → Prop} (hcan : ∀ path, ∃ result, can path result) (s : Schedule) :
    ∃ events t, Course stops workers can s events t ∧ t.isComplete = true := by
  induction hn : s.remaining using Nat.strongRecOn generalizing s with
  | ind n ih =>
      cases hcomplete : s.isComplete with
      | true => exact ⟨[], s, .nil, hcomplete⟩
      | false =>
          obtain ⟨event, t, hnext⟩ :=
            exists_course_of_not_isComplete stops workers hcan hcomplete
          cases hnext with
          | cons hallowed hstep hrest =>
              cases hrest
              have hless : t.remaining < n := hn ▸ remaining_lt hstep
              obtain ⟨events, u, hcourse, hend⟩ := ih t.remaining hless t rfl
              exact ⟨event :: events, u, .cons hallowed hstep hcourse, hend⟩

end Schedule

end MediaPhases
