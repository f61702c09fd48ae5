import MediaPhases.Graph.Search
import MediaPhases.Outcome.Tracker
import MediaPhases.Policy.Basic
import MediaPhases.Text.NameMap

/-!
# Dependency graphs

The graph of the prerequisites of a policy.  A first loop over the phases gives each name its
position, a second one over the prerequisites of each phase fills two tables, of what a phase
requires and of what requires it.  Each stage reports its first defect: no name is used twice,
every prerequisite is another phase of the policy, the prerequisites form no cycle, and every
run-if condition names a phase that is declared earlier.
-/

namespace MediaPhases

/-- The prerequisites of phases. -/
structure DependencyGraph where
  /-- The names of the phases in declared order. -/
  names : List String
  /-- The position of each name. -/
  index : NameMap (Fin names.length)
  /-- For each phase the positions of its prerequisites, each once, in the order written. -/
  edges : List (List (Fin names.length))
  /-- For each phase the positions of the phases of which it is a prerequisite. -/
  backEdges : List (List (Fin names.length))
deriving DecidableEq, Repr

/-- A selected phase with a prerequisite that is not selected. -/
structure SubsetWarning where
  phase : String
  missing : String
deriving DecidableEq, Repr

/-- The wording of a warning. -/
def SubsetWarning.message (w : SubsetWarning) : String :=
  s!"phase '{w.phase}' depends on '{w.missing}', which is not selected; '{w.phase}' will be " ++
    s!"skipped unless '{w.missing}' runs"

/-! ## Building a graph -/

/-- The names that have been gone through while a graph is built. -/
structure Naming (n : Nat) where
  /-- Each name as it is written, under its lower case. -/
  folded : NameMap String := {}
  index : NameMap (Fin n) := {}

/-- Gives a name its position.  It must differ from the names before it in more than letter
case. -/
def Naming.add {n : Nat} (m : Naming n) : Fin n × Phase → Except PolicyDefect (Naming n)
  | (i, phase) =>
    match m.folded.get? (Text.lowercase phase.name) with
    | some existing => .error (.duplicatePhase phase.name existing)
    | none => .ok ⟨m.folded.insert (Text.lowercase phase.name) phase.name,
        m.index.insert phase.name i⟩

/-- The edges of a graph in both directions while it is built. -/
structure EdgeTables (n : Nat) where
  edges : List (List (Fin n))
  backEdges : List (List (Fin n))

namespace EdgeTables

variable {n : Nat}

/-- Tables without edges. -/
def empty (n : Nat) : EdgeTables n where
  edges := List.replicate n []
  backEdges := List.replicate n []

/-- The prerequisites so far of the phase at a position. -/
def edgesOf (t : EdgeTables n) (i : Fin n) : List (Fin n) :=
  (t.edges[i.val]?).getD []

/-- The phases so far of which the phase at a position is a prerequisite. -/
def backEdgesOf (t : EdgeTables n) (i : Fin n) : List (Fin n) :=
  (t.backEdges[i.val]?).getD []

/-- Makes one phase a prerequisite of another in both tables, unless it is one already. -/
def link (t : EdgeTables n) (i d : Fin n) : EdgeTables n :=
  if (t.edgesOf i).contains d then t
  else
    { edges := t.edges.modify i (· ++ [d])
      backEdges := t.backEdges.modify d (· ++ [i]) }

/-- Goes through one prerequisite of a phase. -/
def addReference (index : NameMap (Fin n)) (i : Fin n) (phase : String) (t : EdgeTables n)
    (dependency : String) : Except PolicyDefect (EdgeTables n) :=
  if dependency = phase then .error (.selfDependency phase)
  else
    match index.get? dependency with
    | none => .error (.unknownDependency phase dependency)
    | some d => .ok (t.link i d)

/-- Goes through the prerequisites of a phase. -/
def addPhase (index : NameMap (Fin n)) (t : EdgeTables n) :
    Fin n × Phase → Except PolicyDefect (EdgeTables n)
  | (i, phase) => phase.dependsOn.foldlM (addReference index i phase.name) t

end EdgeTables

/-- What is wrong with the run-if condition of the phase at a position, which must name a phase at
an earlier one. -/
def runIfDefect? {n : Nat} (index : NameMap (Fin n)) : Fin n × Phase → Option PolicyDefect
  | (i, phase) =>
    match phase.runIf with
    | none => none
    | some c =>
      match index.get? c.reference with
      | none => some (.unknownRunIfReference phase.name c.reference)
      | some r => if i ≤ r then some (.forwardRunIfReference phase.name c.reference) else none

/-- Checks the run-if conditions of phases in order. -/
def checkRunIf {n : Nat} (index : NameMap (Fin n)) (entries : List (Fin n × Phase)) :
    Except PolicyDefect Unit :=
  match entries.findSome? (runIfDefect? index) with
  | some defect => .error defect
  | none => .ok ()

namespace DependencyGraph

/-- The positions of the prerequisites of the phase at a position. -/
def edgesOf (g : DependencyGraph) (i : Fin g.names.length) : List (Fin g.names.length) :=
  (g.edges[i.val]?).getD []

/-- The positions of the phases of which the phase at a position is a prerequisite. -/
def backEdgesOf (g : DependencyGraph) (i : Fin g.names.length) : List (Fin g.names.length) :=
  (g.backEdges[i.val]?).getD []

/-- The defect of a cycle of prerequisites, if there is one. -/
def firstCycle? (g : DependencyGraph) : Option PolicyDefect :=
  (findCycle? g.edgesOf).map fun nodes => .cycle (nodes.map (g.names[·]))

/-- Checks that prerequisites form no cycle. -/
def checkCycles (g : DependencyGraph) : Except PolicyDefect Unit :=
  match g.firstCycle? with
  | some defect => .error defect
  | none => .ok ()

/-- Phases with their positions. -/
def numbered (phases : List Phase) : List (Fin (phases.map (·.name)).length × Phase) :=
  (List.finRange _).zip phases

/-- Builds the graph of a list of phases. -/
def build (phases : List Phase) : Except PolicyDefect DependencyGraph := do
  let naming ← (numbered phases).foldlM Naming.add {}
  let tables ← (numbered phases).foldlM (EdgeTables.addPhase naming.index) (.empty _)
  let g : DependencyGraph :=
    { names := phases.map (·.name)
      index := naming.index
      edges := tables.edges
      backEdges := tables.backEdges }
  g.checkCycles
  checkRunIf naming.index (numbered phases)
  return g

/-- The number of phases. -/
def size (g : DependencyGraph) : Nat :=
  g.names.length

/-- Whether there are no phases. -/
def isEmpty (g : DependencyGraph) : Bool :=
  g.names.isEmpty

/-- The position of a phase in declared order. -/
def indexOf? (g : DependencyGraph) (phase : String) : Option (Fin g.names.length) :=
  g.index.get? phase

/-- Whether a name is that of a phase. -/
def contains (g : DependencyGraph) (phase : String) : Bool :=
  (g.index.get? phase).isSome

/-- The prerequisites of a phase, each once, in the order written. -/
def prerequisites (g : DependencyGraph) (phase : String) : List String :=
  match g.indexOf? phase with
  | some i => (g.edgesOf i).map (g.names[·])
  | none => []

/-- The phases of which a phase is a prerequisite, in declared order. -/
def dependents (g : DependencyGraph) (phase : String) : List String :=
  match g.indexOf? phase with
  | some i => (g.backEdgesOf i).map (g.names[·])
  | none => []

/-- The first prerequisite of a phase that has not completed, and its outcome. -/
def firstUnmet? (g : DependencyGraph) (t : Tracker) (phase : String) :
    Option (String × Outcome) :=
  ((g.prerequisites phase).find? fun name => t.outcome name != .completed).map fun name =>
    (name, t.outcome name)

/-- Whether all prerequisites of a phase have completed. -/
def isSatisfied (g : DependencyGraph) (t : Tracker) (phase : String) : Bool :=
  (g.firstUnmet? t phase).isNone

/-- The warnings for a selection: every prerequisite of a selected phase that is not selected.
Names that are no phases are passed over. -/
def subsetWarnings (g : DependencyGraph) (selected : List String) : List SubsetWarning :=
  let chosen := selected.filterMap g.indexOf?
  chosen.flatMap fun i =>
    ((g.edgesOf i).filter (!chosen.contains ·)).map fun d => ⟨g.names[i], g.names[d]⟩

end DependencyGraph

end MediaPhases
