import MediaPhases.Engine.Batch
import MediaPhases.Proofs.Engine.Courses
import MediaPhases.Proofs.Graph.Filling
import Mathlib.Data.List.Infix

/-!
# Results of batches

Whatever course a batch takes, its result accounts for every file: the first files have a result
each, in the order of the files, and the others are listed as not started.  That happens
only after a failure under the error mode that stops.  Where the results do not depend on other
files, it can be told how many files are processed: all of them, or those up to the first one that
fails and fewer behind it than there are workers.
-/

namespace MediaPhases

namespace Schedule

variable {stops : Bool} {workers : ℕ} {s t : Schedule}

/-! ## The result of a batch -/

/-- A batch has processed some number of files, the first ones, and has passed over the others. -/
structure Processes
    (stops : Bool) (workers : ℕ) (can : String → FileResult → Prop) (paths : List String)
    (result : BatchResult) : Prop where
  length_le : result.results.length ≤ paths.length
  notStarted : result.notStarted = paths.drop result.results.length
  given : ∀ (i : ℕ) (r : FileResult), result.results[i]? = some r →
    ∃ path, paths[i]? = some path ∧ can path r
  /-- Files are passed over only after a failure that stops the batch. -/
  halted : result.notStarted ≠ [] → stops = true ∧ ∃ r ∈ result.results, r.success = false
  /-- Fewer files were started behind a failure that stops the batch than the window holds. -/
  behind : stops = true → ∀ (i : ℕ) (r : FileResult), result.results[i]? = some r →
    r.success = false → result.results.length ≤ i + windowSize workers

/-- The results are those of the files in front, and what has none stands behind. -/
theorem split_of_started
    {l : List (String × Option FileResult)} {started : ℕ} (hstarted : started ≤ l.length)
    (h : ∀ (i : ℕ) (f : String × Option FileResult), l[i]? = some f →
      (f.2 = none ↔ started ≤ i)) :
    (l.filterMap (·.2)).map some = (l.take started).map (·.2) ∧
      l.filter (·.2.isNone) = l.drop started := by
  induction l generalizing started with
  | nil => simp
  | cons first rest ih =>
      obtain ⟨path, result⟩ := first
      cases started with
      | zero =>
          have hfirst : result = none := (h 0 _ rfl).mpr (Nat.le_refl 0)
          obtain ⟨hresults, hpassed⟩ := ih (Nat.zero_le _) fun i f hf =>
            (h (i + 1) f hf).trans (iff_of_true (Nat.zero_le _) (Nat.zero_le _))
          subst hfirst
          exact ⟨hresults, by simpa using hpassed⟩
      | succ started =>
          have hfirst : result ≠ none := fun hnone => by
            have hle := (h 0 _ rfl).mp hnone
            omega
          obtain ⟨hresults, hpassed⟩ := ih (Nat.le_of_succ_le_succ hstarted) fun i f hf =>
            (h (i + 1) f hf).trans Nat.succ_le_succ_iff
          obtain ⟨r, rfl⟩ := Option.ne_none_iff_exists'.mp hfirst
          exact ⟨by simpa using hresults, by simpa using hpassed⟩

section Ended

variable {can : String → FileResult → Prop} {paths : List String} {started : ℕ}

theorem getElem?_files_of_isComplete (hcomplete : s.isComplete = true) (i : ℕ) :
    s.files[i]? = (s.emitted[i]?).map fun f => (f.1, .landed f.2) := by
  rw [files, (isComplete_iff.mp hcomplete).2, List.append_nil, List.getElem?_map]

/-- When a batch has ended, its results and the files passed over are parts of one list. -/
theorem Invariant.split
    (h : Invariant stops workers can paths started s) (hcomplete : s.isComplete = true) :
    s.result.results.map some = (s.emitted.take started).map (·.2) ∧
      s.result.notStarted = (s.emitted.drop started).map (·.1) := by
  have hlength : started ≤ s.emitted.length := by
    have hle := h.started_le
    rw [length_files, (isComplete_iff.mp hcomplete).2] at hle
    exact hle
  obtain ⟨hresults, hpassed⟩ := split_of_started hlength fun i f hf => by
    have hfile : s.files[i]? = some (f.1, .landed f.2) := by
      rw [getElem?_files_of_isComplete hcomplete, hf]
      rfl
    rw [← h.passed_iff i _ _ hfile]
    simp
  exact ⟨hresults, congrArg (List.map Prod.fst) hpassed⟩

/-- Of the files that were started, each has its result. -/
theorem Invariant.getElem?_results
    (h : Invariant stops workers can paths started s) (hcomplete : s.isComplete = true) {i : ℕ}
    {r : FileResult} : s.result.results[i]? = some r ↔ ∃ path, s.FinishedWith i path r := by
  have hmap : s.result.results[i]? = some r ↔
      ((s.emitted.take started).map (·.2))[i]? = some (some r) := by
    rw [← (h.split hcomplete).1, List.getElem?_map]
    simp
  rw [hmap, List.getElem?_map, Option.map_eq_some_iff]
  constructor
  · rintro ⟨⟨path, result⟩, hfile, rfl⟩
    refine ⟨path, ?_⟩
    rw [List.getElem?_take] at hfile
    split at hfile
    · rw [FinishedWith, getElem?_files_of_isComplete hcomplete, hfile]
      rfl
    · cases hfile
  · rintro ⟨path, hfinished⟩
    have hstarted : i < started := by
      by_contra hle
      have hpassed := (h.passed_iff i path _ hfinished).mpr (Nat.le_of_not_lt hle)
      cases hpassed
    rw [FinishedWith, getElem?_files_of_isComplete hcomplete, Option.map_eq_some_iff] at hfinished
    obtain ⟨⟨name, result⟩, hfile, heq⟩ := hfinished
    cases heq
    refine ⟨(name, some r), ?_, rfl⟩
    rw [List.getElem?_take_of_lt hstarted]
    exact hfile

/-- What has been preserved, read off the result of a batch that has ended. -/
theorem Invariant.processes
    (h : Invariant stops workers can paths started s) (hcomplete : s.isComplete = true) :
    Processes stops workers can paths s.result := by
  obtain ⟨hresults, hpassed⟩ := h.split hcomplete
  obtain ⟨hwaiting, hwindow⟩ := isComplete_iff.mp hcomplete
  have hnames : s.files.map Prod.fst = paths := by
    have haccounted := h.accounted
    rw [hwaiting, List.append_nil] at haccounted
    exact haccounted
  have hpaths : s.emitted.map (·.1) = paths := by
    rw [← hnames, files, hwindow, List.append_nil, List.map_map]
    rfl
  have hemitted : s.emitted.length = paths.length := by rw [← hpaths, List.length_map]
  have hfiles : s.files.length = paths.length := by rw [← hnames, List.length_map]
  have hstarted : started ≤ paths.length := hfiles ▸ h.started_le
  have hlength : s.result.results.length = started := by
    have hmap := congrArg List.length hresults
    rw [List.length_map, List.length_map, List.length_take, hemitted] at hmap
    omega
  have hnotStarted : s.result.notStarted = paths.drop started := by
    rw [hpassed, List.map_drop, hpaths]
  constructor
  case length_le => rw [hlength]; exact hstarted
  case notStarted => rw [hlength]; exact hnotStarted
  case given =>
    intro i r hr
    obtain ⟨path, hfinished⟩ := (h.getElem?_results hcomplete).mp hr
    refine ⟨path, ?_, h.given i path r hfinished⟩
    rw [← hnames, List.getElem?_map, hfinished]
    rfl
  case halted =>
    intro hpassedOver
    have hhalted : s.isHalted = true := by
      by_contra hgoesOn
      refine hpassedOver ?_
      rw [hnotStarted, h.goesOn (by simpa using hgoesOn), hfiles, List.drop_length]
    obtain ⟨hstops, i, path, r, hfinished, hfailed⟩ := h.halted_iff.mp hhalted
    have hr := (h.getElem?_results hcomplete).mpr ⟨path, hfinished⟩
    exact ⟨hstops, r, List.mem_of_getElem? hr, hfailed⟩
  case behind =>
    intro hstops i r hr hfailed
    by_contra hfar
    obtain ⟨path, other, hfinished, hsuccess⟩ := h.behind i (by omega)
    have hother := (h.getElem?_results hcomplete).mpr ⟨path, hfinished⟩
    rw [hr] at hother
    cases hother
    rw [hsuccess hstops] at hfailed
    cases hfailed

theorem Course.processes
    {events : List ScheduleEvent} (h : Course stops workers can (.initial paths) events s)
    (hcomplete : s.isComplete = true) : Processes stops workers can paths s.result := by
  obtain ⟨started, hinvariant⟩ := h.invariant Invariant.initial
  exact hinvariant.processes hcomplete

/-- Every run of a schedule that is complete has processed the first files. -/
theorem processes_of_run
    {events : List ScheduleEvent} (h : run stops workers events (.initial paths) = some s)
    (hcomplete : s.isComplete = true) : Processes stops workers (fun _ _ => True) paths s.result :=
  Course.processes (run_eq_some_iff.mp h) hcomplete

end Ended

end Schedule

namespace BatchRunner

variable {σ : Type} {b : BatchRunner σ} {can : String → FileResult → Prop}

/-- What a file gives by itself. -/
def alone (b : BatchRunner σ) (world : σ) (path : String) : FileResult :=
  (b.runPath path world).result

theorem stopsOnFailure_eq_true_iff :
    b.stopsOnFailure = true ↔ b.runner.policy.errorMode = .stop := by
  rw [stopsOnFailure, beq_iff_eq]

theorem filePath_alone (world : σ) (path : String) : (b.alone world path).filePath = path := by
  rw [alone, runPath]
  cases b.prober.probe path world <;> rfl

/-- A file that cannot be probed fails. -/
theorem success_alone_of_probe
    {path : String} {world : σ} {failure : Failure}
    (h : b.prober.probe path world = .error failure) : (b.alone world path).success = false := by
  rw [alone, runPath, h]
  rfl

/-! ## The course of a run -/

/-- A batch can end with a result. -/
def EndsWith
    (b : BatchRunner σ) (can : String → FileResult → Prop) (paths : List String)
    (result : BatchResult) : Prop :=
  ∃ events s, Schedule.Course b.stopsOnFailure b.workers can (.initial paths) events s ∧
    s.isComplete = true ∧ s.result = result

theorem EndsWith.processes
    {paths : List String} {result : BatchResult} (h : b.EndsWith can paths result) :
    Schedule.Processes b.stopsOnFailure b.workers can paths result := by
  obtain ⟨events, s, hcourse, hcomplete, rfl⟩ := h
  exact hcourse.processes hcomplete

/-- A run without a next event has nothing left to do. -/
theorem isComplete_of_next?_eq_none {run : BatchRun σ} (h : b.next? run = none) :
    run.schedule.isComplete = true := by
  rw [next?] at h
  split at h
  · cases h
  · rename_i hroom
    split at h
    · rename_i hwindow
      have hwaiting : run.schedule.waiting = [] := by
        by_contra hne
        refine hroom ⟨hne, ?_⟩
        rw [hwindow]
        exact Schedule.windowSize_pos
      exact Schedule.isComplete_iff.mpr ⟨hwaiting, hwindow⟩
    · cases h
    · cases h

/-- The next event of a run is possible. -/
theorem exists_step_of_next?_eq_some
    (hcan : ∀ path world, can path (b.alone world path)) {run next : BatchRun σ}
    {event : ScheduleEvent} (h : b.next? run = some (event, next)) :
    next.schedule = run.schedule ∧ run.schedule.Allows can event ∧
      ∃ t, run.schedule.step b.stopsOnFailure b.workers event = some t := by
  rw [next?] at h
  split at h
  · rename_i hroom
    cases h
    obtain ⟨path, rest, hwaiting⟩ := List.exists_cons_of_ne_nil hroom.1
    refine ⟨rfl, trivial, _, by rw [Schedule.step, hwaiting]; exact if_pos hroom.2⟩
  · split at h
    · cases h
    · rename_i path landed rest hwindow
      cases h
      exact ⟨rfl, trivial, _, by rw [Schedule.step, hwindow]⟩
    · rename_i path rest hwindow
      cases h
      refine ⟨rfl, ?_, _, by rw [Schedule.step, hwindow]; rfl⟩
      intro name flight hposition
      rw [hwindow] at hposition
      cases hposition
      exact hcan path run.world

/-- Followed for long enough, a schedule takes a course to its end. -/
theorem exists_course_advance
    (hcan : ∀ path world, can path (b.alone world path)) {n : ℕ} (run : BatchRun σ)
    (hn : run.schedule.remaining ≤ n) :
    ∃ events, Schedule.Course b.stopsOnFailure b.workers can run.schedule events
        (b.advance n run).schedule ∧
      (b.advance n run).schedule.isComplete = true := by
  induction n generalizing run with
  | zero =>
      refine ⟨[], .nil, ?_⟩
      cases hnext : b.next? run with
      | none => exact isComplete_of_next?_eq_none hnext
      | some found =>
          obtain ⟨-, -, t, hstep⟩ := exists_step_of_next?_eq_some hcan hnext
          have hless := Schedule.remaining_lt hstep
          omega
  | succ n ih =>
      rw [advance]
      cases hnext : b.next? run with
      | none => exact ⟨[], .nil, isComplete_of_next?_eq_none hnext⟩
      | some found =>
          obtain ⟨event, next⟩ := found
          obtain ⟨hsame, hallowed, t, hstep⟩ := exists_step_of_next?_eq_some hcan hnext
          have hless := Schedule.remaining_lt hstep
          have hrest : t.remaining ≤ n := by omega
          obtain ⟨events, hcourse, hcomplete⟩ := ih { next with schedule := t } hrest
          simp only [hsame, hstep]
          exact ⟨event :: events, .cons hallowed hstep hcourse, hcomplete⟩

/-- A batch that is run ends. -/
theorem endsWith_runFiles
    (hcan : ∀ path world, can path (b.alone world path)) (paths : List String)
    (world : σ) : b.EndsWith can paths (b.runFiles paths world).result := by
  obtain ⟨events, hcourse, hcomplete⟩ :=
    exists_course_advance hcan { schedule := .initial paths, world := world } (Nat.le_refl _)
  exact ⟨events, _, hcourse, hcomplete, rfl⟩

/-! ## Every file is accounted for -/

/-- The results that a file can have, whatever is answered to what is asked about it. -/
def CanGive (b : BatchRunner σ) (path : String) (result : FileResult) : Prop :=
  ∃ (τ : Type) (executor : Executor τ) (prober : Prober τ) (world : τ),
    BatchRunner.alone ⟨b.runner, executor, prober, b.workers, b.dryRun⟩ world path = result

theorem canGive_alone (path : String) (world : σ) : b.CanGive path (b.alone world path) :=
  ⟨σ, b.executor, b.prober, world, rfl⟩

theorem CanGive.filePath_eq {path : String} {result : FileResult} (h : b.CanGive path result) :
    result.filePath = path := by
  obtain ⟨τ, executor, prober, world, rfl⟩ := h
  exact filePath_alone world path

/-- Every file can have a result: probing it may fail. -/
theorem exists_canGive (path : String) : ∃ result, b.CanGive path result :=
  ⟨_, Unit, .pure "" fun _ => .ok {}, ⟨"", fun _ _ => .error (.internal "")⟩, (), rfl⟩

/-- What the result of a batch tells about its files. -/
structure AccountsFor (b : BatchRunner σ) (paths : List String) (result : BatchResult) : Prop where
  paths_eq : result.results.map (·.filePath) ++ result.notStarted = paths
  halted : result.notStarted ≠ [] →
    b.runner.policy.errorMode = .stop ∧ ∃ r ∈ result.results, r.success = false
  success_iff : result.success = true ↔
    result.results.map (·.filePath) = paths ∧ ∀ r ∈ result.results, r.success = true

theorem EndsWith.accountsFor
    {paths : List String} {result : BatchResult} (h : b.EndsWith b.CanGive paths result) :
    b.AccountsFor paths result := by
  have hprocesses := h.processes
  have hbegins : result.results.map (·.filePath) <+: paths := by
    refine List.prefix_iff_getElem?.mpr fun i hi => ?_
    rw [List.length_map] at hi
    obtain ⟨path, hpath, hgiven⟩ := hprocesses.given i _ (List.getElem?_eq_getElem hi)
    rw [hpath, List.getElem_map, hgiven.filePath_eq]
  have hpaths : result.results.map (·.filePath) ++ result.notStarted = paths := by
    have happend := List.prefix_append_drop hbegins
    rw [List.length_map, ← hprocesses.notStarted] at happend
    exact happend.symm
  refine ⟨hpaths, fun hpassed => ?_, ?_⟩
  · obtain ⟨hstops, hfailed⟩ := hprocesses.halted hpassed
    exact ⟨stopsOnFailure_eq_true_iff.mp hstops, hfailed⟩
  · rw [BatchResult.success, Bool.and_eq_true, List.isEmpty_iff, List.all_eq_true]
    refine and_congr_left fun _ => ?_
    constructor
    · intro hnone
      rw [hnone, List.append_nil] at hpaths
      exact hpaths
    · intro hall
      rw [hall] at hpaths
      exact List.append_right_eq_self.mp hpaths

/-- Whatever course a batch takes, it comes to an end within three events for each file, and then
it accounts for every file. -/
theorem accountsFor_every_course (b : BatchRunner σ) (paths : List String) :
    (∀ events s,
      Schedule.Course b.stopsOnFailure b.workers b.CanGive (.initial paths) events s →
        events.length ≤ 3 * paths.length ∧
        (s.isComplete = false → ∃ event t,
          Schedule.Course b.stopsOnFailure b.workers b.CanGive s [event] t) ∧
        (s.isComplete = true → b.AccountsFor paths s.result)) ∧
      ∀ world, b.AccountsFor paths (b.runFiles paths world).result := by
  constructor
  · intro events s hcourse
    have hlength := hcourse.length_add_remaining_le
    rw [Schedule.remaining_initial] at hlength
    refine ⟨Nat.le_of_add_right_le hlength, ?_, ?_⟩
    · exact Schedule.exists_course_of_not_isComplete _ _ exists_canGive
    · intro hcomplete
      have hends : b.EndsWith b.CanGive paths s.result := ⟨events, s, hcourse, hcomplete, rfl⟩
      exact hends.accountsFor
  · intro world
    exact (endsWith_runFiles canGive_alone paths world).accountsFor

/-- Two workers under the error mode that stops; the file "b" cannot be probed. -/
def pair : BatchRunner Unit where
  runner := {
    policy := {
      phases := [{ name := "cut" }]
      graph := DependencyGraph.ofPhases [{ name := "cut" }]
      errorMode := .stop
      graph_eq := by cbv } }
  executor := .pure "willing" fun _ => .ok {}
  prober := {
    name := "catalogue"
    probe := fun path _ =>
      if path = "b" then .error (.probe (.stated "not in the catalogue")) else .ok {} }
  workers := 2

/-- The second file finishes before the first one, which fails; the third one is passed over. -/
theorem pair_endsWith
    {can : String → FileResult → Prop} (hcan : ∀ path, can path (pair.alone () path)) :
    pair.EndsWith can ["b", "a", "c"]
      { results := [pair.alone () "b", pair.alone () "a"], notStarted := ["c"] } := by
  let final : Schedule := {
    waiting := []
    emitted := [("b", some (pair.alone () "b")), ("a", some (pair.alone () "a")), ("c", none)]
    isHalted := true }
  refine ⟨[.start, .start, .finish 1 (pair.alone () "a"), .finish 0 (pair.alone () "b"),
    .emit, .emit, .start, .emit], final, ?_, rfl, rfl⟩
  refine .cons trivial rfl (.cons trivial rfl (.cons ?_ rfl (.cons ?_ rfl (.cons trivial rfl
    (.cons trivial rfl (.cons trivial rfl (.cons trivial rfl .nil)))))))
  · rintro path flight ⟨⟩
    exact hcan "a"
  · rintro path flight ⟨⟩
    exact hcan "b"

/-- The third file is accounted for, though a failure has kept it from being started. -/
theorem pair_accountsFor_third :
    ∃ result, pair.EndsWith pair.CanGive ["b", "a", "c"] result ∧
      pair.AccountsFor ["b", "a", "c"] result ∧
      result.notStarted = ["c"] ∧ ¬ result.success = true := by
  obtain ⟨events, s, hcourse, hcomplete, hresult⟩ :=
    pair_endsWith fun path => canGive_alone path ()
  have haccounts : pair.AccountsFor ["b", "a", "c"] s.result :=
    ((accountsFor_every_course pair ["b", "a", "c"]).1 events s hcourse).2.2 hcomplete
  have hpassed : s.result.notStarted = ["c"] := by rw [hresult]
  refine ⟨s.result, ⟨events, s, hcourse, hcomplete, rfl⟩, haccounts, hpassed, ?_⟩
  intro hsuccess
  have hall := haccounts.paths_eq
  rw [(haccounts.success_iff.mp hsuccess).1, hpassed] at hall
  cases hall

/-! ## Files that do not depend on one another -/

/-- Each file gives what it gives by itself. -/
def GivesAlone (b : BatchRunner σ) (world : σ) (path : String) (result : FileResult) : Prop :=
  result = b.alone world path

/-- The position of the first file that fails by itself. -/
def firstFailure? (b : BatchRunner σ) (world : σ) (paths : List String) : Option ℕ :=
  paths.findIdx? fun path => !(b.alone world path).success

variable {world : σ} {paths : List String} {result : BatchResult}

theorem firstFailure?_eq_none_iff :
    b.firstFailure? world paths = none ↔ ∀ path ∈ paths, (b.alone world path).success = true := by
  simp [firstFailure?]

theorem firstFailure?_eq_some_iff {f : ℕ} :
    b.firstFailure? world paths = some f ↔
      (∃ path, paths[f]? = some path ∧ (b.alone world path).success = false) ∧
        ∀ i path, i < f → paths[i]? = some path → (b.alone world path).success = true := by
  rw [firstFailure?, List.findIdx?_eq_some_iff_getElem]
  constructor
  · rintro ⟨hf, hfailed, hbefore⟩
    refine ⟨⟨paths[f], List.getElem?_eq_getElem hf, by simpa using hfailed⟩, ?_⟩
    intro i path hi hpath
    obtain ⟨hlt, rfl⟩ := List.getElem?_eq_some_iff.mp hpath
    simpa using hbefore i hi
  · rintro ⟨⟨path, hpath, hfailed⟩, hbefore⟩
    obtain ⟨hf, rfl⟩ := List.getElem?_eq_some_iff.mp hpath
    refine ⟨hf, by simpa using hfailed, ?_⟩
    intro i hi
    simpa using hbefore i _ hi (List.getElem?_eq_getElem (hi.trans hf))

/-- What a batch processes whose files give what they give by themselves. -/
structure ProcessesAlone
    (b : BatchRunner σ) (world : σ) (paths : List String) (result : BatchResult) : Prop where
  results_isPrefix : result.results <+: paths.map (b.alone world)
  processes_all : b.runner.policy.errorMode ≠ .stop ∨ b.firstFailure? world paths = none →
    result.results.length = paths.length
  overrun : b.runner.policy.errorMode = .stop → ∀ f, b.firstFailure? world paths = some f →
    f + 1 ≤ result.results.length ∧
      result.results.length ≤ min paths.length (f + max b.workers 1)

/-- If files are passed over, then some file in front of them has failed. -/
theorem EndsWith.exists_failure
    (h : b.EndsWith (b.GivesAlone world) paths result)
    (hless : result.results.length < paths.length) :
    b.runner.policy.errorMode = .stop ∧ ∃ i path, i < result.results.length ∧
      paths[i]? = some path ∧ (b.alone world path).success = false := by
  have hprocesses := h.processes
  have hpassed : result.notStarted ≠ [] := by
    rw [hprocesses.notStarted, Ne, List.drop_eq_nil_iff]
    omega
  obtain ⟨hstops, r, hr, hfailed⟩ := hprocesses.halted hpassed
  obtain ⟨i, hi, rfl⟩ := List.getElem_of_mem hr
  obtain ⟨path, hpath, hgiven⟩ := hprocesses.given i _ (List.getElem?_eq_getElem hi)
  rw [hgiven] at hfailed
  exact ⟨stopsOnFailure_eq_true_iff.mp hstops, i, path, hi, hpath, hfailed⟩

theorem EndsWith.processesAlone (h : b.EndsWith (b.GivesAlone world) paths result) :
    b.ProcessesAlone world paths result := by
  have hprocesses := h.processes
  have hbegins : result.results <+: paths.map (b.alone world) := by
    refine List.prefix_iff_getElem?.mpr fun i hi => ?_
    obtain ⟨path, hpath, hgiven⟩ := hprocesses.given i _ (List.getElem?_eq_getElem hi)
    rw [List.getElem?_map, hpath, Option.map_some, hgiven]
  constructor
  case results_isPrefix => exact hbegins
  case processes_all =>
    intro hall
    by_contra hne
    obtain ⟨hstop, i, path, -, hpath, hfailed⟩ :=
      h.exists_failure (Nat.lt_of_le_of_ne hprocesses.length_le hne)
    rcases hall with hmode | hnone
    · exact hmode hstop
    · have hsuccess := firstFailure?_eq_none_iff.mp hnone path (List.mem_of_getElem? hpath)
      rw [hfailed] at hsuccess
      cases hsuccess
  case overrun =>
    intro hstop f hfirst
    obtain ⟨⟨path, hpath, hfailed⟩, hbefore⟩ := firstFailure?_eq_some_iff.mp hfirst
    have hf : f < paths.length := (List.getElem?_eq_some_iff.mp hpath).1
    have hlower : f < result.results.length := by
      by_contra hle
      obtain ⟨-, i, other, hi, hother, hless⟩ := h.exists_failure (by omega)
      rw [hbefore i other (by omega) hother] at hless
      cases hless
    have hr : result.results[f] = b.alone world path := by
      have hget := List.prefix_iff_getElem?.mp hbegins f hlower
      rw [List.getElem?_map, hpath] at hget
      exact (Option.some.inj hget).symm
    have hupper := hprocesses.behind (stopsOnFailure_eq_true_iff.mpr hstop) f _
      (List.getElem?_eq_getElem hlower) (by rw [hr]; exact hfailed)
    exact ⟨hlower, le_min hprocesses.length_le hupper⟩

/-- One worker stops exactly behind the first failure. -/
theorem ProcessesAlone.length_of_single
    (h : { b with workers := 1 }.ProcessesAlone world paths result)
    (hstop : b.runner.policy.errorMode = .stop) {f : ℕ}
    (hfirst : b.firstFailure? world paths = some f) : result.results.length = f + 1 := by
  obtain ⟨hlower, hupper⟩ := h.overrun hstop f hfirst
  exact Nat.le_antisymm (hupper.trans (Nat.min_le_right _ _)) hlower

/-- One worker processes no more files than several. -/
theorem ProcessesAlone.isPrefix_of_single
    {single : BatchResult} (h : b.ProcessesAlone world paths result)
    (hsingle : { b with workers := 1 }.ProcessesAlone world paths single) :
    single.results <+: result.results := by
  refine List.prefix_of_prefix_length_le hsingle.results_isPrefix h.results_isPrefix ?_
  have hle : single.results.length ≤ paths.length := by
    have hlength := hsingle.results_isPrefix.length_le
    rwa [List.length_map] at hlength
  by_cases hstop : b.runner.policy.errorMode = .stop
  · cases hfirst : b.firstFailure? world paths with
    | none => rwa [h.processes_all (Or.inr hfirst)]
    | some f =>
        rw [hsingle.length_of_single hstop hfirst]
        exact (h.overrun hstop f hfirst).1
  · rwa [h.processes_all (Or.inl hstop)]

/-- Where files do not depend on one another, a batch gives the results of the first files by
themselves; stopped by a failure, it goes fewer files beyond the first one than it has workers. -/
theorem processesAlone_of_independent (b : BatchRunner σ) (world : σ) (paths : List String) :
    (∀ path failure, b.prober.probe path world = .error failure →
      (b.alone world path).success = false) ∧
    (∃ result, b.EndsWith (b.GivesAlone world) paths result) ∧
    ((∀ path other, b.alone other path = b.alone world path) →
      b.EndsWith (b.GivesAlone world) paths (b.runFiles paths world).result) ∧
    ∀ result, b.EndsWith (b.GivesAlone world) paths result →
      b.ProcessesAlone world paths result ∧
      ∀ single, { b with workers := 1 }.EndsWith (b.GivesAlone world) paths single →
        single.results <+: result.results ∧
        (b.runner.policy.errorMode = .stop → ∀ f, b.firstFailure? world paths = some f →
          single.results.length = f + 1) := by
  refine ⟨fun _ _ => success_alone_of_probe, ?_, fun hsame => ?_, fun result h => ?_⟩
  · have hcan : ∀ path, ∃ r, b.GivesAlone world path r := fun _ => ⟨_, rfl⟩
    obtain ⟨events, s, hcourse, hcomplete⟩ :=
      Schedule.exists_course_isComplete b.stopsOnFailure b.workers hcan (.initial paths)
    exact ⟨s.result, events, s, hcourse, hcomplete, rfl⟩
  · exact endsWith_runFiles hsame paths world
  · refine ⟨h.processesAlone, fun single hsingle => ?_⟩
    have halone : { b with workers := 1 }.ProcessesAlone world paths single :=
      hsingle.processesAlone
    exact ⟨h.processesAlone.isPrefix_of_single halone, fun hstop f hfirst =>
      halone.length_of_single hstop hfirst⟩

/-- Two workers go one file beyond the failure of the first one, at which one worker stops. -/
theorem pair_processes_second :
    ∃ result single, pair.EndsWith (pair.GivesAlone ()) ["b", "a", "c"] result ∧
      { pair with workers := 1 }.EndsWith (pair.GivesAlone ()) ["b", "a", "c"] single ∧
      single.results = [pair.alone () "b"] ∧
      result.results = single.results ++ [pair.alone () "a"] := by
  have hends : pair.EndsWith (pair.GivesAlone ()) ["b", "a", "c"] _ := pair_endsWith fun _ => rfl
  obtain ⟨single, hsingle⟩ :=
    (processesAlone_of_independent { pair with workers := 1 } () ["b", "a", "c"]).2.1
  obtain ⟨hbegins, hlength⟩ :=
    ((processesAlone_of_independent pair () ["b", "a", "c"]).2.2.2 _ hends).2 single hsingle
  have hfirst : pair.firstFailure? () ["b", "a", "c"] = some 0 := rfl
  have hone : single.results = [pair.alone () "b"] := by
    have htake := List.prefix_iff_eq_take.mp hbegins
    rw [hlength rfl 0 hfirst] at htake
    exact htake
  exact ⟨_, single, hends, hsingle, hone, by rw [hone]; rfl⟩

end BatchRunner

end MediaPhases
