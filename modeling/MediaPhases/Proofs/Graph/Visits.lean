import MediaPhases.Graph.Basic
import MediaPhases.Proofs.Graph.Search
import Mathlib.Data.Fintype.Card
import Mathlib.Data.List.FinRange

/-!
# Visits within visits

The search for cycles keeps its path in frames.  Here it is told as a recursion.  The visit of a
node enters the node, follows its edges in turn, with a visit within the visit where an edge leads
to a fresh node, and leaves the node at last.  The visits work on plain numbers: whatever they look
up may be missing, and no more visits within one another are allowed than is said beforehand.  On
the edges of a graph nothing is ever missing, as many visits within one another as there are nodes
are enough, and the visits enter, mark and report what the search does.
-/

namespace MediaPhases

namespace DependencyGraph

/-- The edges of a graph as numbers, a row for each phase. -/
def table (g : DependencyGraph) : List (List ℕ) :=
  g.edges.map (·.map Fin.val)

theorem getElem?_table {g : DependencyGraph} (hrows : g.edges.length = g.names.length)
    (v : Fin g.names.length) : g.table[v.val]? = some ((g.edgesOf v).map Fin.val) := by
  have hv : v.val < g.edges.length := Nat.lt_of_lt_of_eq v.isLt hrows.symm
  simp [table, edgesOf, hv]

/-- All nodes have names. -/
theorem mapM_names (g : DependencyGraph) (nodes : List (Fin g.names.length)) :
    (nodes.map Fin.val).mapM (g.names[·]?) = some (nodes.map g.names.get) := by
  have hname : ∀ v : Fin g.names.length, g.names[v.val]? = pure (g.names.get v) :=
    fun v => List.getElem?_eq_getElem v.isLt
  rw [List.mapM_map]
  simp only [Function.comp_def, hname]
  exact List.mapM_pure

end DependencyGraph

namespace Visits

/-- What the visit of a node finds when it begins. -/
structure Entry where
  node : ℕ
  marks : Array Mark
  /-- The nodes whose visits this one is within, the outermost first. -/
  path : List ℕ
deriving DecidableEq, Repr

/-- What the visits change. -/
structure State where
  marks : Array Mark
  path : List ℕ
  /-- The visits that have begun, in order. -/
  entries : List Entry
deriving DecidableEq, Repr

/-- Why visits end early. -/
inductive Stop where
  | defect (defect : PolicyDefect)
  /-- A number is no position of the list in which it is looked up. -/
  | outOfRange
  /-- An active node is not on the path. -/
  | offPath
  /-- A visit is within as many others as are allowed. -/
  | tooDeep
deriving DecidableEq, Repr

/-- Visits leave a state behind also when they end early. -/
abbrev VisitM := EStateM Stop State

/-- The state before the first visit, with `n` nodes. -/
def State.initial (n : ℕ) : State where
  marks := Array.replicate n .fresh
  path := []
  entries := []

/-- Goes on with what has been looked up, if it is there. -/
def orStop {α : Type} (stop : Stop) : Option α → VisitM α
  | some a => pure a
  | none => throw stop

def setMark (node : ℕ) (m : Mark) : VisitM Unit := do
  let s ← get
  if h : node < s.marks.size then
    set { s with marks := s.marks.set node m h }
  else throw .outOfRange

/-- Begins the visit of a node. -/
def enter (node : ℕ) : VisitM Unit := do
  modify fun s => { s with entries := s.entries ++ [⟨node, s.marks, s.path⟩] }
  setMark node .active
  modify fun s => { s with path := s.path ++ [node] }

/-- Ends the visit of the last node of the path. -/
def leave (node : ℕ) : VisitM Unit := do
  modify fun s => { s with path := s.path.dropLast }
  setMark node .finished

/-- Reports the cycle that is closed by an edge from the end of the path back to a node of it. -/
def report (names : List String) (next : ℕ) : VisitM Unit := do
  let s ← get
  let start ← orStop .offPath (s.path.idxOf? next)
  let path ← orStop .outOfRange ((s.path.drop start ++ [next]).mapM (names[·]?))
  throw (.defect (.cycle path))

/-- Follows an edge, with the given way of visiting a node. -/
def follow (names : List String) (visit : ℕ → VisitM Unit) (next : ℕ) : VisitM Unit := do
  let s ← get
  match ← orStop .outOfRange s.marks[next]? with
  | .fresh => visit next
  | .active => report names next
  | .finished => pure ()

/-- Visits a node, with at most `depth` visits within one another. -/
def visit (names : List String) (table : List (List ℕ)) : (depth : ℕ) → (node : ℕ) → VisitM Unit
  | 0, _ => throw .tooDeep
  | depth + 1, node => do
    enter node
    let row ← orStop .outOfRange table[node]?
    row.forM (follow names (visit names table depth))
    leave node

/-- Starts at a node, unless it has been visited already. -/
def start (visit : ℕ → VisitM Unit) (root : ℕ) : VisitM Unit := do
  let s ← get
  match ← orStop .outOfRange s.marks[root]? with
  | .fresh => visit root
  | _ => pure ()

/-- Visits all nodes, in order. -/
def visitAll (names : List String) (table : List (List ℕ)) (depth : ℕ) : VisitM Unit :=
  (List.range names.length).forM (start (visit names table depth))

end Visits

/-! ## Visits in the search -/

namespace Search

open Visits (Entry)

variable {n : ℕ} {edges : Fin n → List (Fin n)} {s t u : Search n}

/-- The next step enters a node, with the given path behind it and the given roots left. -/
inductive Enters (s : Search n) (node : Fin n) : List (Frame n) → List (Fin n) → Prop where
  | root (roots : List (Fin n))
      (hframes : s.frames = []) (hroots : s.roots = node :: roots)
      (hmark : s.mark node = .fresh) :
      Enters s node [] roots
  | edge (last : Fin n) (rest : List (Fin n)) (behind : List (Frame n))
      (hframes : s.frames = ⟨last, node :: rest⟩ :: behind)
      (hmark : s.mark node = .fresh) :
      Enters s node (⟨last, rest⟩ :: behind) s.roots

section Enters

variable {node : Fin n} {behind : List (Frame n)} {roots : List (Fin n)}

theorem Enters.step_eq (h : s.Enters node behind roots) :
    s.step edges = .goOn (s.enter edges node behind roots) := by
  cases h with
  | root roots hframes hroots hmark =>
      exact step_of_move (.start node roots hframes hroots hmark)
  | edge last rest behind hframes hmark =>
      exact step_of_move (.follow last node rest behind hframes hmark)

theorem Enters.mark_eq (h : s.Enters node behind roots) : s.mark node = .fresh := by
  cases h with
  | root _ _ _ hmark => exact hmark
  | edge _ _ _ _ hmark => exact hmark

theorem Enters.nodes_eq (h : s.Enters node behind roots) : nodes behind = nodes s.frames := by
  cases h with
  | root _ hframes => rw [hframes]
  | edge _ _ _ hframes => simp [hframes]

theorem Enters.length_eq (h : s.Enters node behind roots) : behind.length = s.frames.length := by
  have hnodes := congrArg List.length h.nodes_eq
  rwa [nodes, nodes, List.length_map, List.length_map] at hnodes

end Enters

/-- What is found when the visit of a node begins in a state of the search. -/
def entry (s : Search n) (node : Fin n) : Entry :=
  ⟨node, s.marks.toArray, s.path.map Fin.val⟩

/-- The search passes from one state to another, and what the visits find that begin on the way is
given by the entries. -/
inductive Passes (edges : Fin n → List (Fin n)) : Search n → List Entry → Search n → Prop where
  | refl (s : Search n) : Passes edges s [] s
  | enter {s t : Search n} {node : Fin n} {behind : List (Frame n)} {roots : List (Fin n)}
      {entries : List Entry}
      (henters : s.Enters node behind roots)
      (h : Passes edges (s.enter edges node behind roots) entries t) :
      Passes edges s (s.entry node :: entries) t
  /-- A step after which every node that was fresh still is begins no visit. -/
  | goOn {s t u : Search n} {entries : List Entry}
      (hs : s.step edges = .goOn u) (hfresh : ∀ v, s.mark v = .fresh → u.mark v = .fresh)
      (h : Passes edges u entries t) :
      Passes edges s entries t

namespace Passes

variable {entries first second : List Entry}

theorem trans (hst : Passes edges s first t) (htu : Passes edges t second u) :
    Passes edges s (first ++ second) u := by
  induction hst with
  | refl => exact htu
  | enter henters _ ih => exact .enter henters (ih htu)
  | goOn hs hfresh _ ih => exact .goOn hs hfresh (ih htu)

theorem invariant (h : Passes edges s entries t) (hs : Invariant edges s) : Invariant edges t := by
  induction h with
  | refl => exact hs
  | enter henters _ ih => exact ih (hs.step henters.step_eq)
  | goOn hstep _ _ ih => exact ih (hs.step hstep)

theorem run_eq (h : Passes edges s entries t) : s.run edges = t.run edges := by
  induction h with
  | refl => rfl
  | @enter s _ _ _ _ _ henters _ ih =>
      rw [s.run_eq, henters.step_eq]
      exact ih
  | @goOn s _ _ _ hstep _ _ ih =>
      rw [s.run_eq, hstep]
      exact ih

end Passes

/-- While a node is fresh the path does not pass through all nodes. -/
theorem Invariant.length_lt_of_fresh (h : Invariant edges s) {v : Fin n}
    (hv : s.mark v = .fresh) : s.frames.length < n := by
  have hnotMem : v ∉ nodes s.frames := by
    rw [← h.active_iff, hv]
    decide
  have hle := (List.nodup_cons.mpr ⟨hnotMem, h.nodup⟩).length_le_card
  rwa [Fintype.card_fin, List.length_cons, nodes, List.length_map] at hle

/-! ### The search as visits see it -/

/-- A state of the search in numbers. -/
def view (s : Search n) (entries : List Entry) : Visits.State :=
  ⟨s.marks.toArray, s.path.map Fin.val, entries⟩

theorem getElem?_marks (s : Search n) (v : Fin n) :
    s.marks.toArray[v.val]? = some (s.mark v) := by
  rw [Vector.getElem?_toArray]
  exact Vector.getElem?_eq_getElem v.isLt

section Steps

variable {node : Fin n} {behind : List (Frame n)} {roots : List (Fin n)}

theorem marks_enter :
    (s.enter edges node behind roots).marks = s.marks.set node .active node.isLt := rfl

theorem marks_leave : (s.leave node behind).marks = s.marks.set node .finished node.isLt := rfl

theorem path_enter (h : nodes behind = nodes s.frames) :
    (s.enter edges node behind roots).path = s.path ++ [node] := by
  simp only [nodes] at h
  simp [path, h]

theorem path_leave {rest : List (Fin n)} (h : s.frames = ⟨node, rest⟩ :: behind) :
    (s.leave node behind).path = s.path.dropLast := by
  simp [path, h]

/-- Passing over an edge changes nothing that visits see. -/
theorem view_ignore {next : Fin n} {rest : List (Fin n)}
    (h : s.frames = ⟨node, next :: rest⟩ :: behind) (entries : List Entry) :
    ({ s with frames := ⟨node, rest⟩ :: behind } : Search n).view entries = s.view entries := by
  simp [view, path, h]

end Steps

theorem view_initial (n : ℕ) : (initial n).view [] = .initial n := by
  simp [view, initial, path, Visits.State.initial]

end Search

/-! ## Visits keep up with the search -/

namespace Visits

open Search (Passes Invariant)

/-- What stands from the first place of something on is what is left when all that differs from it
is dropped. -/
theorem exists_idxOf?_eq_some {α : Type*} [DecidableEq α] {l : List α} {a : α} (h : a ∈ l) :
    ∃ k, l.idxOf? a = some k ∧ l.drop k = l.dropWhile (· ≠ a) := by
  refine ⟨l.findIdx (· == a), List.findIdx?_eq_some_of_exists ⟨a, h, beq_self_eq_true a⟩, ?_⟩
  rw [List.dropWhile_eq_drop_findIdx_not]
  simp [beq_eq_decide]

theorem run_orStop {α : Type} (stop : Stop) (a : α) (s : State) :
    (orStop stop (some a)).run s = .ok a s := rfl

section Steps

variable {n : ℕ} {edges : Fin n → List (Fin n)} {s : Search n} {node : Fin n}
  {behind : List (Frame n)} {roots : List (Fin n)}

theorem run_enter (h : s.Enters node behind roots) (entries : List Entry) :
    (enter node).run (s.view entries) =
      .ok () ((s.enter edges node behind roots).view (entries ++ [s.entry node])) := by
  simp [enter, setMark, Search.view, Search.entry, Search.marks_enter,
    Search.path_enter h.nodes_eq]

theorem run_leave {rest : List (Fin n)} (h : s.frames = ⟨node, rest⟩ :: behind)
    (entries : List Entry) :
    (leave node).run (s.view entries) = .ok () ((s.leave node behind).view entries) := by
  simp [leave, setMark, Search.view, Search.marks_leave, Search.path_leave h, List.map_dropLast]

end Steps

variable {g : DependencyGraph} {s t : Search g.names.length} {entries made : List Entry}
  {frames behind : List (Frame g.names.length)} {roots : List (Fin g.names.length)}

/-- At an edge back into the path the cycle is reported that the search finds there. -/
theorem run_report {next : Fin g.names.length} (h : next ∈ s.path) :
    (report g.names next).run (s.view entries) =
      .error (.defect (.cycle ((s.path.dropWhile (· ≠ next) ++ [next]).map g.names.get)))
        (s.view entries) := by
  have hmem : next.val ∈ s.path.map Fin.val := List.mem_map_of_mem h
  obtain ⟨start, hstart, hdrop⟩ := exists_idxOf?_eq_some hmem
  have hpart : (s.path.map Fin.val).drop start ++ [next.val] =
      (s.path.dropWhile (· ≠ next) ++ [next]).map Fin.val := by
    rw [hdrop, List.dropWhile_map, List.map_append, List.map_singleton]
    simp [Function.comp_def, Fin.ext_iff]
  simp only [report, Search.view, EStateM.run_bind, EStateM.run_get, hstart, run_orStop, hpart,
    g.mapM_names]
  rfl

/-- Visits that begin in a state of the search, after the given entries, take it to a state with
the given path and roots, or else to a state in which it finds a cycle, which they report. -/
inductive KeepsUp (g : DependencyGraph) (s : Search g.names.length) (entries : List Entry)
    (frames : List (Frame g.names.length)) (roots : List (Fin g.names.length)) :
    EStateM.Result Stop State Unit → Prop where
  | arrives {t : Search g.names.length} {made : List Entry}
      (hpasses : Passes g.edgesOf s made t)
      (hframes : t.frames = frames) (hroots : t.roots = roots) :
      KeepsUp g s entries frames roots (.ok () (t.view (entries ++ made)))
  | stops {t : Search g.names.length} {made : List Entry} {found : List (Fin g.names.length)}
      (hpasses : Passes g.edgesOf s made t) (hcycle : t.step g.edgesOf = .cycle found) :
      KeepsUp g s entries frames roots
        (.error (.defect (.cycle (found.map g.names.get))) (t.view (entries ++ made)))

namespace KeepsUp

variable {r : EStateM.Result Stop State Unit}

theorem of_passes (hpasses : Passes g.edgesOf s made t)
    (hr : KeepsUp g t (entries ++ made) frames roots r) : KeepsUp g s entries frames roots r := by
  cases hr with
  | arrives hrest hframes hroots =>
      rw [List.append_assoc]
      exact .arrives (hpasses.trans hrest) hframes hroots
  | stops hrest hcycle =>
      rw [List.append_assoc]
      exact .stops (hpasses.trans hrest) hcycle

theorem of_goOn (hs : s.step g.edgesOf = .goOn t)
    (hfresh : ∀ v, s.mark v = .fresh → t.mark v = .fresh)
    (hr : KeepsUp g t entries frames roots r) : KeepsUp g s entries frames roots r := by
  rw [← List.append_nil entries] at hr
  exact .of_passes (.goOn hs hfresh (.refl t)) hr

theorem here (hframes : s.frames = frames) (hroots : s.roots = roots) :
    KeepsUp g s entries frames roots (.ok () (s.view entries)) := by
  have h : KeepsUp g s entries frames roots (.ok () (s.view (entries ++ []))) :=
    .arrives (.refl s) hframes hroots
  rwa [List.append_nil] at h

theorem of_cycle {found : List (Fin g.names.length)} (hcycle : s.step g.edgesOf = .cycle found) :
    KeepsUp g s entries frames roots
      (.error (.defect (.cycle (found.map g.names.get))) (s.view entries)) := by
  have h : KeepsUp g s entries frames roots
      (.error (.defect (.cycle (found.map g.names.get))) (s.view (entries ++ []))) :=
    .stops (.refl s) hcycle
  rwa [List.append_nil] at h

/-- One thing after another. -/
theorem bind {x : VisitM Unit} {f : Unit → VisitM Unit}
    {halfway : List (Frame g.names.length)} {left : List (Fin g.names.length)}
    (hx : KeepsUp g s entries halfway left (x.run (s.view entries)))
    (hf : ∀ t made, Passes g.edgesOf s made t → t.frames = halfway → t.roots = left →
      KeepsUp g t (entries ++ made) frames roots ((f ()).run (t.view (entries ++ made)))) :
    KeepsUp g s entries frames roots ((x >>= f).run (s.view entries)) := by
  rw [EStateM.run_bind]
  generalize x.run (s.view entries) = r at hx
  cases hx with
  | arrives hpasses hframes hroots => exact .of_passes hpasses (hf _ _ hpasses hframes hroots)
  | stops hpasses hcycle => exact .stops hpasses hcycle

end KeepsUp

section Following

variable {last : Fin g.names.length} {rest : List (Fin g.names.length)}

theorem keepsUp_follow (h : Invariant g.edgesOf s) {next : Fin g.names.length}
    (hframes : s.frames = ⟨last, next :: rest⟩ :: behind) {visit : ℕ → VisitM Unit}
    (hvisit : s.Enters next (⟨last, rest⟩ :: behind) s.roots →
      KeepsUp g s entries (⟨last, rest⟩ :: behind) s.roots
        ((visit next).run (s.view entries))) :
    KeepsUp g s entries (⟨last, rest⟩ :: behind) s.roots
      ((follow g.names visit next).run (s.view entries)) := by
  have hlook : (s.view entries).marks[next.val]? = some (s.mark next) := s.getElem?_marks next
  simp only [follow, EStateM.run_bind, EStateM.run_get, hlook, run_orStop]
  cases hmark : s.mark next with
  | fresh => exact hvisit (.edge last rest behind hframes hmark)
  | active =>
      have hmem : next ∈ s.path := List.mem_reverse.mpr ((h.active_iff next).mp hmark)
      rw [run_report hmem]
      apply KeepsUp.of_cycle
      exact Search.step_of_active hframes hmark
  | finished =>
      rw [← Search.view_ignore hframes]
      apply KeepsUp.of_goOn
      case hs => exact Search.step_of_move (.ignore last next rest behind hframes hmark)
      case hfresh => exact fun _ hv => hv
      case hr => exact .here rfl rfl

/-- The edges of a node are followed one after another.  All visits on the way are within those of
the same nodes. -/
theorem keepsUp_forM_follow (h : Invariant g.edgesOf s)
    (hframes : s.frames = ⟨last, rest⟩ :: behind) {visit : ℕ → VisitM Unit}
    (hvisit : ∀ {s : Search g.names.length} {entries : List Entry} {next : Fin g.names.length}
        {frames : List (Frame g.names.length)} {roots : List (Fin g.names.length)},
      Invariant g.edgesOf s → s.frames.length = behind.length + 1 → s.Enters next frames roots →
        KeepsUp g s entries frames roots ((visit next).run (s.view entries))) :
    KeepsUp g s entries (⟨last, []⟩ :: behind) s.roots
      (((rest.map Fin.val).forM (follow g.names visit)).run (s.view entries)) := by
  induction rest generalizing s entries with
  | nil => exact .here hframes rfl
  | cons next rest ih =>
      have hlength : s.frames.length = behind.length + 1 := by
        rw [hframes, List.length_cons]
      apply (keepsUp_follow h hframes (hvisit h hlength)).bind
      intro t made hpasses hframes' hroots
      rw [← hroots]
      exact ih (hpasses.invariant h) hframes'

theorem keepsUp_leave (h : Invariant g.edgesOf s) (hframes : s.frames = ⟨last, []⟩ :: behind) :
    KeepsUp g s entries behind s.roots ((leave last).run (s.view entries)) := by
  rw [run_leave hframes]
  apply KeepsUp.of_goOn
  case hs => exact Search.step_of_move (.leave last behind hframes)
  case hfresh =>
    intro v hv
    have hne : last ≠ v := by
      intro heq
      have hactive := h.node_active hframes
      rw [heq, hv] at hactive
      contradiction
    rw [Search.leave_mark, if_neg hne]
    exact hv
  case hr => exact .here rfl rfl

end Following

/-- A visit keeps up with the search when as many visits within one another are allowed as there
are nodes off the path. -/
theorem keepsUp_visit (hrows : g.edges.length = g.names.length) {depth : ℕ}
    (h : Invariant g.edgesOf s) (hdepth : g.names.length ≤ depth + s.frames.length)
    {node : Fin g.names.length} (henters : s.Enters node behind roots) :
    KeepsUp g s entries behind roots
      ((visit g.names g.table depth node).run (s.view entries)) := by
  induction depth generalizing s entries node behind roots with
  | zero =>
      -- A node that is entered is off the path, so no visit is one too many.
      have hlt := h.length_lt_of_fresh henters.mark_eq
      omega
  | succ depth ih =>
      -- Inside, one visit fewer is allowed, and the path has become longer by one node.
      have hlength := henters.length_eq
      have hinside : Invariant g.edgesOf (s.enter g.edgesOf node behind roots) :=
        h.step henters.step_eq
      have henter : (enter node).run (s.view entries) =
          .ok () ((s.enter g.edgesOf node behind roots).view (entries ++ [s.entry node])) :=
        run_enter henters entries
      have hfollow : KeepsUp g (s.enter g.edgesOf node behind roots) (entries ++ [s.entry node])
          (⟨node, []⟩ :: behind) roots _ :=
        keepsUp_forM_follow hinside (Search.enter_frames s node behind roots)
          (fun ht hframes hnext => ih ht (by omega) hnext)
      rw [visit, EStateM.run_bind, henter]
      simp only [EStateM.run_bind (orStop _ _), g.getElem?_table hrows, run_orStop]
      apply KeepsUp.of_passes (.enter henters (.refl _))
      apply hfollow.bind
      intro t made hpasses hframes hroots
      rw [← hroots]
      exact keepsUp_leave (hpasses.invariant hinside) hframes

theorem keepsUp_start {root : Fin g.names.length} (hframes : s.frames = [])
    (hroots : s.roots = root :: roots) {visit : ℕ → VisitM Unit}
    (hvisit : s.Enters root [] roots →
      KeepsUp g s entries [] roots ((visit root).run (s.view entries))) :
    KeepsUp g s entries [] roots ((start visit root).run (s.view entries)) := by
  have hlook : (s.view entries).marks[root.val]? = some (s.mark root) := s.getElem?_marks root
  simp only [start, EStateM.run_bind, EStateM.run_get, hlook, run_orStop]
  split
  · rename_i hmark
    exact hvisit (.root roots hframes hroots hmark)
  · rename_i hmark
    have hhere : KeepsUp g ({ s with roots := roots } : Search g.names.length) entries [] roots
        (.ok () (s.view entries)) := .here hframes rfl
    apply KeepsUp.of_goOn
    case hs => exact Search.step_of_move (.pass root roots hframes hroots hmark)
    case hfresh => exact fun _ hv => hv
    case hr => exact hhere

theorem keepsUp_forM_start (hrows : g.edges.length = g.names.length) {depth : ℕ}
    (hdepth : g.names.length ≤ depth) (h : Invariant g.edgesOf s) (hframes : s.frames = [])
    (hroots : s.roots = roots) :
    KeepsUp g s entries [] []
      (((roots.map Fin.val).forM (start (visit g.names g.table depth))).run (s.view entries)) := by
  induction roots generalizing s entries with
  | nil => exact .here hframes hroots
  | cons root roots ih =>
      have hallowed : g.names.length ≤ depth + s.frames.length := Nat.le_add_right_of_le hdepth
      apply (keepsUp_start hframes hroots (keepsUp_visit hrows h hallowed)).bind
      intro t made hpasses hframes' hroots'
      exact ih (hpasses.invariant h) hframes' hroots'

/-- The visits of all nodes keep up with the search from its beginning. -/
theorem keepsUp_visitAll (hrows : g.edges.length = g.names.length) {depth : ℕ}
    (hdepth : g.names.length ≤ depth) :
    KeepsUp g (.initial g.names.length) [] [] []
      ((visitAll g.names g.table depth).run (.initial g.names.length)) := by
  rw [visitAll, ← List.map_coe_finRange_eq_range, ← Search.view_initial]
  exact keepsUp_forM_start hrows hdepth (Search.invariant_initial g.edgesOf) rfl rfl

end Visits

end MediaPhases
