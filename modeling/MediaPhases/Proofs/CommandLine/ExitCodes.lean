import MediaPhases.CommandLine.Session
import MediaPhases.Proofs.Document.Record
import MediaPhases.Proofs.Engine.Batches
import MediaPhases.Proofs.Document.Json.RoundTrip
import MediaPhases.Proofs.Engine.Warnings
import MediaPhases.Proofs.Policy.Document
import MediaPhases.Proofs.Policy.Soundness

/-!
# Exit codes of runs

A run of a policy on files has one of three exit codes.  It has the code 2 when the text of the
policy file is no sound policy or when the selection names a phase that the policy does not have;
then neither the prober nor the executor has been asked anything.  Otherwise the code tells whether
every file was processed successfully, on whatever course the files have come out.
-/

namespace MediaPhases

/-! ## Selections -/

namespace Runner

variable {r : Runner} {names : List String}

theorem isPolicyFailure_of_select {failure : Failure} (h : r.select names = .error failure) :
    failure.isPolicyFailure = true := by
  rw [select] at h
  split at h
  · rename_i hpositions
    cases h
    obtain ⟨name, -, -, rfl⟩ := unknownPhase_of_positionsOf ValidatedPolicy.inStep_graph hpositions
    rfl
  · cases h

theorem exists_select_eq_ok_iff :
    (∃ selected, r.select names = .ok selected) ↔
      ∀ name ∈ names, name ∈ r.policy.phases.map (·.name) := by
  constructor
  · rintro ⟨⟨s, warnings⟩, h⟩
    obtain ⟨positions, hpositions, -⟩ := select_eq_ok h
    intro name hname
    rw [← ValidatedPolicy.names_graph]
    exact mem_names_of_positionsOf ValidatedPolicy.inStep_graph hpositions name hname
  · intro hnames
    obtain ⟨s, warnings, h⟩ := exists_select hnames
    exact ⟨(s, warnings), h⟩

end Runner

/-! ## Layers of context -/

namespace JobFault

/-- The failure that decides is found under any layers of context. -/
theorem exitCode_eq_two_iff {fault : JobFault} :
    fault.exitCode = 2 ↔ ∃ f, fault.failure? = some f ∧ f.isPolicyFailure = true := by
  rw [exitCode]
  cases fault.failure? with
  | none => simp
  | some f =>
      by_cases hf : f.isPolicyFailure = true
      · simp [Failure.exitCode, hf]
      · simp [Failure.exitCode, hf]

end JobFault

namespace CommandLine

/-! ## Refused policies -/

/-- A text cannot be used as a policy for the selected phases. -/
inductive IsRefused
    (format : DocumentFormat) (text : String) (selected : Option (List String)) : Prop where
  | unreadable (fault : Fault) (hread : Policy.read format text = .error fault)
  | unsound (policy : Policy) (hread : Policy.read format text = .ok policy)
      (hunsound : ¬policy.IsSound)
  | unknownPhase (policy : Policy) (hread : Policy.read format text = .ok policy)
      (names : List String) (hselected : selected = some names) (name : String)
      (hname : name ∈ names) (hunknown : name ∉ policy.phaseNames)

/-- What is not refused is a sound policy with the phases that are selected. -/
theorem not_isRefused_iff
    {format : DocumentFormat} {text : String} {selected : Option (List String)} :
    ¬IsRefused format text selected ↔
      ∃ policy, Policy.read format text = .ok policy ∧ policy.IsSound ∧
        ∀ names, selected = some names → ∀ name ∈ names, name ∈ policy.phaseNames := by
  constructor
  · intro hnot
    cases hread : Policy.read format text with
    | error fault => exact absurd (.unreadable fault hread) hnot
    | ok policy =>
        refine ⟨policy, rfl, ?_, ?_⟩
        · by_contra hunsound
          exact hnot (.unsound policy hread hunsound)
        · intro names hselected name hname
          by_contra hunknown
          exact hnot (.unknownPhase policy hread names hselected name hname hunknown)
  · rintro ⟨policy, hread, hsound, hnames⟩ hrefused
    cases hrefused with
    | unreadable fault hfault =>
        rw [hread] at hfault
        cases hfault
    | unsound other hother hunsound =>
        rw [hread] at hother
        cases hother
        exact hunsound hsound
    | unknownPhase other hother names hselected name hname hunknown =>
        rw [hread] at hother
        cases hother
        exact hunknown (hnames names hselected name hname)

section Prepare

variable {s : Settings} {t t' : FileTree} {path text : String} {selected : Option (List String)}
  {policy : Policy} {checked : ValidatedPolicy} {fault : JobFault}

theorem loadPolicy_eq_ok_iff (htext : t.readText path = .ok text) :
    loadPolicy s t path = .ok (policy, checked) ↔
      Policy.read (Policy.formatOf path) text = .ok policy ∧
        ValidatedPolicy.ofPolicy policy s.engine.errorMode = .ok checked := by
  rw [loadPolicy, Policy.load, htext]
  constructor
  · intro h
    split at h
    · cases h
    · rename_i hparse
      split at h
      · cases h
      · rename_i hchecked
        cases h
        exact ⟨(Policy.parse_eq_ok_iff.mp hparse).1, hchecked⟩
  · rintro ⟨hread, hchecked⟩
    have hvalid := (ValidatedPolicy.ofPolicy_eq_ok_iff.mp hchecked).1
    simp only [Policy.parse_eq_ok_iff.mpr ⟨hread, hvalid⟩, hchecked]

theorem exitCode_of_loadPolicy
    (htext : t.readText path = .ok text) (h : loadPolicy s t path = .error fault) :
    fault.exitCode = 2 := by
  rw [loadPolicy, Policy.load, htext] at h
  split at h
  · rename_i hparse
    cases h
    exact JobFault.exitCode_eq_two_iff.mpr ⟨_, rfl, Policy.isPolicyFailure_of_parse hparse⟩
  · split at h
    · cases h
      rfl
    · cases h

theorem exitCode_of_selectPhases (h : selectPhases checked selected = .error fault) :
    fault.exitCode = 2 := by
  cases selected with
  | none => cases h
  | some names =>
      obtain ⟨failure, hselect, rfl⟩ := mapError_eq_error_iff.mp h
      exact JobFault.exitCode_eq_two_iff.mpr
        ⟨failure, rfl, Runner.isPolicyFailure_of_select hselect⟩

theorem exists_selectPhases_eq_ok_iff :
    (∃ result, selectPhases checked selected = .ok result) ↔
      ∀ names, selected = some names → ∀ name ∈ names, name ∈ checked.phases.map (·.name) := by
  cases selected with
  | none => simp [selectPhases]
  | some names =>
      simp only [selectPhases, mapError_eq_ok_iff, Option.some.injEq, forall_eq']
      exact Runner.exists_select_eq_ok_iff

/-- A policy file that cannot be read is no failure of the policy. -/
theorem exitCode_of_readText_error {missing : FileFault}
    (htext : t.readText path = .error missing) :
    ∃ fault, prepare s t path selected = .error fault ∧ fault.exitCode = 1 := by
  rw [prepare, loadPolicy, Policy.load, htext]
  exact ⟨_, rfl, rfl⟩

/-- Only the text of the policy file matters. -/
theorem prepare_congr (htext : t.readText path = t'.readText path) :
    prepare s t path selected = prepare s t' path selected := by
  simp only [prepare, loadPolicy, Policy.load, htext]

theorem exitCode_of_prepare
    (htext : t.readText path = .ok text) (h : prepare s t path selected = .error fault) :
    fault.exitCode = 2 := by
  rw [prepare] at h
  cases hload : loadPolicy s t path with
  | error other =>
      rw [hload] at h
      cases h
      exact exitCode_of_loadPolicy htext hload
  | ok loaded =>
      rw [hload] at h
      exact exitCode_of_selectPhases h

theorem prepare_eq_ok_iff
    {result : Runner × List SubsetWarning} (htext : t.readText path = .ok text) :
    prepare s t path selected = .ok result ↔
      ∃ policy checked, Policy.read (Policy.formatOf path) text = .ok policy ∧
        ValidatedPolicy.ofPolicy policy s.engine.errorMode = .ok checked ∧
        selectPhases checked selected = .ok result := by
  rw [prepare]
  constructor
  · intro h
    split at h
    · cases h
    · rename_i hload
      obtain ⟨hread, hchecked⟩ := (loadPolicy_eq_ok_iff htext).mp hload
      exact ⟨_, _, hread, hchecked, h⟩
  · rintro ⟨policy, checked, hread, hchecked, hselect⟩
    rw [(loadPolicy_eq_ok_iff htext).mpr ⟨hread, hchecked⟩]
    exact hselect

/-- A run comes to its files unless the policy is refused. -/
theorem exists_prepare_eq_ok_iff (htext : t.readText path = .ok text) :
    (∃ result, prepare s t path selected = .ok result) ↔
      ¬IsRefused (Policy.formatOf path) text selected := by
  rw [not_isRefused_iff]
  constructor
  · rintro ⟨result, h⟩
    obtain ⟨policy, checked, hread, hchecked, hselect⟩ := (prepare_eq_ok_iff htext).mp h
    have hphases := (ValidatedPolicy.ofPolicy_eq_ok_iff.mp hchecked).2.1
    refine ⟨policy, hread, ValidatedPolicy.exists_ofPolicy_eq_ok_iff.mp ⟨checked, hchecked⟩, ?_⟩
    rw [Policy.phaseNames, ← hphases]
    exact exists_selectPhases_eq_ok_iff.mp ⟨result, hselect⟩
  · rintro ⟨policy, hread, hsound, hnames⟩
    obtain ⟨checked, hchecked⟩ : ∃ checked,
        ValidatedPolicy.ofPolicy policy s.engine.errorMode = .ok checked :=
      ValidatedPolicy.exists_ofPolicy_eq_ok_iff.mpr hsound
    have hphases := (ValidatedPolicy.ofPolicy_eq_ok_iff.mp hchecked).2.1
    rw [Policy.phaseNames, ← hphases] at hnames
    obtain ⟨result, hselect⟩ := exists_selectPhases_eq_ok_iff.mpr hnames
    exact ⟨result, (prepare_eq_ok_iff htext).mpr ⟨policy, checked, hread, hchecked, hselect⟩⟩

end Prepare

/-! ## Runs -/

/-- The policy file at a path holds text that cannot be used for the selected phases. -/
def IsRefusedAt (t : FileTree) (path : String) (selected : Option (List String)) : Prop :=
  ∃ text, t.readText path = .ok text ∧ IsRefused (Policy.formatOf path) text selected

section Runs

variable {σ : Type} {m : Machine σ} {s : Settings} {path : String} {o : RunOptions}
  {world : σ} {words : List String} {r : Request}

/-- A session has come to its files, and each of them was processed successfully. -/
def Ending.HasProcessed (ending : Ending σ) (files : List String) : Prop :=
  ∃ run, ending.batch = some run ∧ run.result.results.map (·.filePath) = files ∧
    ∀ result ∈ run.result.results, result.success = true

/-- The ways in which a run of a policy may end: with a fault before its files or, once all of them
have come out, with what the batch has given on any of its courses. -/
inductive MayEnd (m : Machine σ) (s : Settings) (path : String) (o : RunOptions) (world : σ) :
    Ending σ → Prop where
  | failed {fault : JobFault} (hprepare : prepare s (m.files world) path o.phases = .error fault) :
      MayEnd m s path o world (failing world "" fault)
  | processed {runner : Runner} {warnings : List SubsetWarning} {run : BatchRun σ}
      (hprepare : prepare s (m.files world) path o.phases = .ok (runner, warnings))
      (hends : (batchOf m s o runner).EndsWith (batchOf m s o runner).CanGive o.files run.result) :
      MayEnd m s path o world (reporting o warnings run)

theorem mayEnd_runPolicy : MayEnd m s path o world (runPolicy m s path o world) := by
  rw [runPolicy]
  cases hprepare : prepare s (m.files world) path o.phases with
  | error fault => exact .failed hprepare
  | ok prepared =>
      have hends := BatchRunner.endsWith_runFiles
        (b := batchOf m s o prepared.1) BatchRunner.canGive_alone o.files world
      exact .processed hprepare hends

theorem not_hasProcessed_failing {fault : JobFault} {stdout : String} {files : List String} :
    ¬(failing world stdout fault).HasProcessed files := by
  rintro ⟨run, hrun, -⟩
  cases hrun

/-- A policy that is refused leaves one ending, which has come to no file. -/
theorem MayEnd.of_isRefusedAt {ending : Ending σ} (h : MayEnd m s path o world ending)
    (hrefused : IsRefusedAt (m.files world) path o.phases) :
    ∃ fault, prepare s (m.files world) path o.phases = .error fault ∧ fault.exitCode = 2 ∧
      ending = failing world "" fault := by
  obtain ⟨text, htext, htextRefused⟩ := hrefused
  cases h with
  | failed hprepare => exact ⟨_, hprepare, exitCode_of_prepare htext hprepare, rfl⟩
  | processed hprepare hends =>
      have hnot := (exists_prepare_eq_ok_iff htext).mp ⟨_, hprepare⟩
      exact absurd htextRefused hnot

/-- On every course, the code of a batch tells whether it has processed all the files. -/
theorem hasProcessed_reporting_iff {runner : Runner} {warnings : List SubsetWarning}
    {run : BatchRun σ}
    (hends : (batchOf m s o runner).EndsWith (batchOf m s o runner).CanGive o.files run.result) :
    (reporting o warnings run).HasProcessed o.files ↔ run.result.success = true := by
  rw [hends.accountsFor.success_iff, Ending.HasProcessed]
  simp [reporting]

/-- What is not refused either cannot be read or ends with the code of a batch. -/
theorem MayEnd.of_not_isRefusedAt {ending : Ending σ} (h : MayEnd m s path o world ending)
    (hnot : ¬IsRefusedAt (m.files world) path o.phases) :
    (ending.code = 0 ∧ ending.HasProcessed o.files) ∨
      (ending.code = 1 ∧ ¬ending.HasProcessed o.files) := by
  cases h with
  | failed hprepare =>
      refine Or.inr ⟨?_, not_hasProcessed_failing⟩
      cases htext : (m.files world).readText path with
      | error missing =>
          obtain ⟨fault, hfault, hcode⟩ := exitCode_of_readText_error (s := s) htext
          rw [hprepare] at hfault
          cases hfault
          exact hcode
      | ok text =>
          have haccepted : ¬IsRefused (Policy.formatOf path) text o.phases :=
            fun hrefused => hnot ⟨text, htext, hrefused⟩
          obtain ⟨prepared, hok⟩ := (exists_prepare_eq_ok_iff (s := s) htext).mpr haccepted
          rw [hprepare] at hok
          cases hok
  | @processed _ _ run hprepare hends =>
      rw [hasProcessed_reporting_iff hends]
      by_cases hsuccess : run.result.success = true
      · exact Or.inl ⟨if_pos hsuccess, hsuccess⟩
      · exact Or.inr ⟨if_neg hsuccess, hsuccess⟩

theorem MayEnd.cases {ending : Ending σ} (h : MayEnd m s path o world ending) :
    let refused := IsRefusedAt (m.files world) path o.phases
    (ending.code = 2 ∧ refused ∧ ¬ending.HasProcessed o.files) ∨
      (ending.code = 0 ∧ ¬refused ∧ ending.HasProcessed o.files) ∨
        (ending.code = 1 ∧ ¬refused ∧ ¬ending.HasProcessed o.files) := by
  intro refused
  by_cases hrefused : refused
  · obtain ⟨fault, -, hcode, rfl⟩ := h.of_isRefusedAt hrefused
    exact Or.inl ⟨hcode, hrefused, not_hasProcessed_failing⟩
  · right
    rcases h.of_not_isRefusedAt hrefused with ⟨hcode, hall⟩ | ⟨hcode, hall⟩
    · exact Or.inl ⟨hcode, hrefused, hall⟩
    · exact Or.inr ⟨hcode, hrefused, hall⟩

theorem session_run
    (hparse : parse words = .ok r) (hjob : r.job = .run o)
    (hsettings : Settings.find (m.files world) m.home r.config = .ok s) :
    session m words world = runPolicy m s r.policy o world := by
  simp only [session, hparse, perform, hsettings, performWith, hjob]

/-- A run has the code 2 exactly when its policy or its selection is refused, and then nothing has
been done; otherwise the code tells whether every file was processed successfully.  This holds of
the session and on every other course that the batch of its files may take. -/
theorem exitCode_of_run
    (hparse : parse words = .ok r) (hjob : r.job = .run o)
    (hsettings : Settings.find (m.files world) m.home r.config = .ok s) :
    MayEnd m s r.policy o world (session m words world) ∧
      ∀ ending, MayEnd m s r.policy o world ending →
        let refused := IsRefusedAt (m.files world) r.policy o.phases
        (ending.code = 2 ↔ refused) ∧
          (refused → ending.batch = none ∧ ending.world = world ∧
            ∀ m' : Machine σ, Settings.find (m'.files world) m'.home r.config = .ok s →
              (m'.files world).readText r.policy = (m.files world).readText r.policy →
                session m' words world = ending) ∧
          (ending.code = 0 ↔ ending.HasProcessed o.files) ∧
          (¬refused → ¬ending.HasProcessed o.files → ending.code = 1) := by
  refine ⟨session_run hparse hjob hsettings ▸ mayEnd_runPolicy, ?_⟩
  intro ending hending refused
  refine ⟨?_, ?_, ?_, ?_⟩
  · rcases hending.cases with ⟨hcode, hrefused, -⟩ | ⟨hcode, hnot, -⟩ | ⟨hcode, hnot, -⟩
    · exact iff_of_true hcode hrefused
    · exact iff_of_false (by rw [hcode]; decide) hnot
    · exact iff_of_false (by rw [hcode]; decide) hnot
  · intro hrefused
    obtain ⟨fault, hprepare, -, rfl⟩ := hending.of_isRefusedAt hrefused
    refine ⟨rfl, rfl, fun m' hsettings' htext => ?_⟩
    rw [← prepare_congr htext] at hprepare
    rw [session_run hparse hjob hsettings', runPolicy, hprepare]
  · rcases hending.cases with ⟨hcode, -, hnot⟩ | ⟨hcode, -, hall⟩ | ⟨hcode, -, hnot⟩
    · exact iff_of_false (by rw [hcode]; decide) hnot
    · exact iff_of_true hcode hall
    · exact iff_of_false (by rw [hcode]; decide) hnot
  · intro hnot hless
    rcases hending.cases with ⟨-, hrefused, -⟩ | ⟨-, -, hall⟩ | ⟨hcode, -, -⟩
    · exact absurd hrefused hnot
    · exact absurd hall hless
    · exact hcode

/-- A policy document with one phase. -/
def oneCut : Value :=
  .table [("phases", .list [.table [("name", .text "cut")]])]

/-- A machine with a policy file and no other, on which no program can be started. -/
def bareMachine : Machine Unit where
  files := fun _ =>
    { root := .directory [("policy.json", .file (Json.pretty oneCut).toUTF8.data.toList)] }
  launch := fun _ world => (.error (.notStarted .notFound), world)
  home := "/home"

theorem find_bareMachine :
    Settings.find (bareMachine.files ()) bareMachine.home none = .ok {} := by
  have hhere : "./phaseforged.toml".contains '\x00' = false := by simp
  have hhome : "/home/.config/phaseforged/config.toml".contains '\x00' = false := by simp
  have hetc : "/etc/phaseforged/config.toml".contains '\x00' = false := by simp
  have hpath : bareMachine.home ++ "/.config/phaseforged/config.toml" =
      "/home/.config/phaseforged/config.toml" := by decide
  simp only [Settings.find, Settings.usualPaths, hpath, List.find?_cons, FileTree.hasPath,
    FileTree.node, FileTree.locate, hhere, hhome, hetc]
  decide +kernel

theorem readText_bareMachine :
    (bareMachine.files ()).readText "policy.json" = .ok (Json.pretty oneCut) := by
  have hnul : "policy.json".contains '\x00' = false := by simp
  rw [FileTree.readText, FileTree.read, FileTree.node, FileTree.locate, hnul]
  decide +kernel

/-- The policy has no phase "mix". -/
theorem isRefusedAt_bareMachine :
    IsRefusedAt (bareMachine.files ()) "policy.json" (some ["mix"]) := by
  have hformat : Policy.formatOf "policy.json" = .json := by decide +kernel
  have hexact : Json.IsExact Json.nestingLimit oneCut := by simp [oneCut, Json.nestingLimit]
  have hreader : Policy.reader Json.dialect oneCut = .ok { phases := [{ name := "cut" }] } := by
    with_unfolding_all rfl
  have hread : Policy.read (Policy.formatOf "policy.json") (Json.pretty oneCut) =
      .ok { phases := [{ name := "cut" }] } := by
    rw [hformat]
    exact Policy.read_json_eq_ok_iff.mpr ⟨oneCut, Json.read_pretty hexact, hreader⟩
  exact ⟨_, readText_bareMachine,
    .unknownPhase _ hread ["mix"] rfl "mix" List.mem_cons_self (by decide)⟩

/-- The request for a run of the phase "mix". -/
def mixRequest : Request where
  policy := "policy.json"
  job := .run { files := ["film.mkv"], phases := some ["mix"] }

/-- A run of a phase that the policy does not have ends with the code 2 and without a batch. -/
theorem exitCode_of_unknown_mix :
    let words := ["run", "--phases", "mix", "policy.json", "film.mkv"]
    parse words = .ok mixRequest ∧ (session bareMachine words ()).code = 2 ∧
      (session bareMachine words ()).batch = none := by
  intro words
  have hparse : parse words = .ok mixRequest := by decide +kernel
  obtain ⟨hends, hcourses⟩ := exitCode_of_run hparse rfl find_bareMachine
  obtain ⟨htwo, hnothing, -⟩ := hcourses _ hends
  exact ⟨hparse, htwo.mpr isRefusedAt_bareMachine, (hnothing isRefusedAt_bareMachine).1⟩

end Runs

end CommandLine

end MediaPhases
