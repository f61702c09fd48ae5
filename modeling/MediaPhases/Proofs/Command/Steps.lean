import MediaPhases.Engine.BuiltIn
import MediaPhases.Proofs.Command.StepDocument

/-!
# Steps one after the other

The commands of a phase are run until one fails.  Whatever the tools answer, either all of them end
well, one after the other, or one is the first that fails.  The phase fails exactly in the second
case, with the failure of that tool, and the commands that have been run are those up to it;
otherwise all of them have been run, and the file counts as changed when a step says so.  Nothing
is run when the file is only looked at, or when the steps cannot be read.
-/

namespace MediaPhases

variable {σ : Type} {launch : Launcher σ} {world world' : σ} {limit : ℕ}

namespace Launcher

variable {commands more before : List ToolCommand} {command : ToolCommand} {fault : ToolFault}

/-! ## Commands in turn -/

/-- All commands end well, one after the other, and lead from one state of the world to another. -/
inductive Succeed (launch : Launcher σ) : List ToolCommand → σ → σ → Prop where
  | nil {world : σ} : Succeed launch [] world world
  | cons {command : ToolCommand} {commands : List ToolCommand} {world middle world' : σ}
      {output : ToolOutput} (hlaunch : launch command world = (.ok output, middle))
      (h : Succeed launch commands middle world') :
      Succeed launch (command :: commands) world world'

/-- The command is the first to fail, and those before it end well. -/
structure FailsAt (launch : Launcher σ) (commands : List ToolCommand) (world : σ)
    (before : List ToolCommand) (command : ToolCommand) (fault : ToolFault) (world' : σ) :
    Prop where
  isPrefix : before ++ [command] <+: commands
  fails : ∃ middle, launch.Succeed before world middle ∧
    launch command middle = (.error fault, world')

theorem succeed_append_iff :
    launch.Succeed (commands ++ more) world world' ↔
      ∃ middle, launch.Succeed commands world middle ∧ launch.Succeed more middle world' := by
  induction commands generalizing world with
  | nil =>
      constructor
      · intro h
        exact ⟨world, .nil, h⟩
      · rintro ⟨middle, hnil, h⟩
        cases hnil
        exact h
  | cons command commands ih =>
      constructor
      · intro h
        obtain _ | ⟨hlaunch, h⟩ := h
        obtain ⟨middle, hcommands, hmore⟩ := ih.mp h
        exact ⟨middle, .cons hlaunch hcommands, hmore⟩
      · rintro ⟨middle, hcommands, hmore⟩
        obtain _ | ⟨hlaunch, hcommands⟩ := hcommands
        exact .cons hlaunch (ih.mpr ⟨middle, hcommands, hmore⟩)

theorem Succeed.unique {world'' : σ} (h : launch.Succeed commands world world')
    (h' : launch.Succeed commands world world'') : world' = world'' := by
  induction h with
  | nil =>
      cases h'
      rfl
  | cons hlaunch _ ih =>
      obtain _ | ⟨hlaunch', h'⟩ := h'
      rw [hlaunch, Prod.mk.injEq] at hlaunch'
      obtain ⟨-, rfl⟩ := hlaunch'
      exact ih h'

theorem FailsAt.not_succeed {world'' : σ}
    (h : launch.FailsAt commands world before command fault world') :
    ¬launch.Succeed commands world world'' := by
  obtain ⟨⟨after, rfl⟩, middle, hbefore, hfails⟩ := h
  intro hall
  rw [List.append_assoc, succeed_append_iff] at hall
  obtain ⟨middle', hbefore', hrest⟩ := hall
  obtain rfl := hbefore.unique hbefore'
  obtain _ | ⟨hlaunch, -⟩ := hrest
  rw [hfails] at hlaunch
  cases hlaunch

/-- Either all commands end well, or one is the first to fail. -/
theorem succeed_or_failsAt (launch : Launcher σ) (commands : List ToolCommand) (world : σ) :
    (∃ world', launch.Succeed commands world world') ∨
      ∃ before command fault world', launch.FailsAt commands world before command fault world' := by
  induction commands generalizing world with
  | nil => exact .inl ⟨world, .nil⟩
  | cons command commands ih =>
      rcases hlaunch : launch command world with ⟨fault | output, middle⟩
      · exact .inr ⟨[], command, fault, middle, ⟨commands, rfl⟩, world, .nil, hlaunch⟩
      · rcases ih middle with ⟨world', h⟩ | ⟨before, failing, fault, world', hstart, h⟩
        · exact .inl ⟨world', .cons hlaunch h⟩
        · obtain ⟨last, hbefore, hfails⟩ := h
          refine .inr ⟨command :: before, failing, fault, world', ?_, last, ?_, hfails⟩
          · exact List.cons_prefix_cons.mpr ⟨rfl, hstart⟩
          · exact .cons hlaunch hbefore

/-! ## Commands on record -/

/-- The launcher that also writes down, in order, the commands that it runs. -/
def recorded (launch : Launcher σ) : Launcher (σ × List ToolCommand) := fun command world =>
  ((launch command world.1).1, ((launch command world.1).2, world.2 ++ [command]))

theorem recorded_eq {answer : Except ToolFault ToolOutput} (ran : List ToolCommand)
    (h : launch command world = (answer, world')) :
    launch.recorded command (world, ran) = (answer, (world', ran ++ [command])) := by
  simp only [recorded, h]

theorem Succeed.recorded (h : launch.Succeed commands world world') (ran : List ToolCommand) :
    launch.recorded.Succeed commands (world, ran) (world', ran ++ commands) := by
  induction h generalizing ran with
  | nil =>
      rw [List.append_nil]
      exact .nil
  | @cons command commands _ _ _ _ hlaunch _ ih =>
      have hrest := ih (ran ++ [command])
      rw [List.append_assoc] at hrest
      exact .cons (recorded_eq ran hlaunch) hrest

theorem FailsAt.recorded (h : launch.FailsAt commands world before command fault world')
    (ran : List ToolCommand) :
    launch.recorded.FailsAt commands (world, ran) before command fault
      (world', ran ++ before ++ [command]) := by
  obtain ⟨hstart, middle, hbefore, hfails⟩ := h
  exact ⟨hstart, _, hbefore.recorded ran, recorded_eq _ hfails⟩

end Launcher

/-! ## The steps of a phase -/

section Steps

variable {c : TemplateContext} {steps : List ExecStep} {command : ToolCommand}
  {before : List ToolCommand} {fault : ToolFault}

theorem runSteps_of_succeed (h : launch.Succeed (steps.map (·.toCommand c limit)) world world') :
    runSteps launch limit c steps world =
      (.ok (steps.any (·.modifies), (steps.map (·.toCommand c limit)).map (·.toolName)),
        world') := by
  induction steps generalizing world with
  | nil =>
      cases h
      rfl
  | cons step steps ih =>
      obtain _ | ⟨hlaunch, h⟩ := h
      simp only [runSteps, ToolCommand.execute, hlaunch, Except.mapError, ih h, List.any_cons,
        List.map_cons]

theorem runSteps_of_failsAt
    (h : launch.FailsAt (steps.map (·.toCommand c limit)) world before command fault world') :
    runSteps launch limit c steps world = (.error (.tool command.toolName fault), world') := by
  obtain ⟨hstart, middle, hbefore, hfails⟩ := h
  induction hbefore generalizing steps with
  | nil =>
      cases steps with
      | nil => simp at hstart
      | cons step steps =>
          rw [List.nil_append, List.map_cons, List.cons_prefix_cons] at hstart
          obtain ⟨rfl, -⟩ := hstart
          simp only [runSteps, ToolCommand.execute, hfails, Except.mapError]
  | cons hlaunch _ ih =>
      cases steps with
      | nil => simp at hstart
      | cons step steps =>
          rw [List.cons_append, List.map_cons, List.cons_prefix_cons] at hstart
          obtain ⟨rfl, hstart⟩ := hstart
          simp only [runSteps, ToolCommand.execute, hlaunch, Except.mapError, ih hstart hfails]

end Steps

/-! ## The executor -/

section Executor

variable {call : Call} {steps : List ExecStep}

/-- The commands of steps, filled in for the file and the phase of a call. -/
def Call.commands (call : Call) (limit : ℕ) (steps : List ExecStep) : List ToolCommand :=
  steps.map (·.toCommand (.ofFile call.context.path call.phase) limit)

theorem Call.commands_append (more : List ExecStep) :
    call.commands limit (steps ++ more) = call.commands limit steps ++ call.commands limit more :=
  List.map_append

/-- The output of a call none of whose commands has failed. -/
def Call.report (call : Call) (limit : ℕ) (steps : List ExecStep) : Output where
  fileModified := !call.context.dryRun && steps.any (·.modifies)
  summary := some <|
    if steps = [] then "no commands"
    else (if call.context.dryRun then "would execute: " else "executed: ") ++
      ", ".intercalate ((call.commands limit steps).map (·.toolName))

theorem Call.fileModified_report : (call.report limit steps).fileModified = true ↔
    call.context.dryRun = false ∧ ∃ step ∈ steps, step.modifies = true := by
  simp [report]

theorem execute_of_refused {failure : Failure}
    (h : ExecStep.ofOperations call.phase call.operations = .error failure) :
    (commandExecutor launch limit).execute call world = (.error failure, world) := by
  simp only [commandExecutor, h]

theorem execute_of_succeed (h : ExecStep.ofOperations call.phase call.operations = .ok steps)
    (hdry : call.context.dryRun = false)
    (hall : launch.Succeed (call.commands limit steps) world world') :
    (commandExecutor launch limit).execute call world =
      (.ok (call.report limit steps), world') := by
  cases steps with
  | nil =>
      cases hall
      simp [commandExecutor, h, Call.report]
  | cons step steps =>
      simp [commandExecutor, h, hdry, runSteps_of_succeed hall, Call.report, Call.commands]

theorem execute_of_failsAt (h : ExecStep.ofOperations call.phase call.operations = .ok steps)
    (hdry : call.context.dryRun = false) {before : List ToolCommand} {command : ToolCommand}
    {fault : ToolFault}
    (hfails : launch.FailsAt (call.commands limit steps) world before command fault world') :
    (commandExecutor launch limit).execute call world =
      (.error (.tool command.toolName fault), world') := by
  cases steps with
  | nil =>
      have hstart := hfails.isPrefix
      simp [Call.commands] at hstart
  | cons step steps =>
      simp only [commandExecutor, h, hdry, Bool.false_eq_true, if_false,
        runSteps_of_failsAt hfails]

namespace CarriesOut

end CarriesOut

end Executor

end MediaPhases
