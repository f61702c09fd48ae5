/-!
# Depth-first search for cycles

A search over a finite directed graph, one step at a time.  A node is fresh until it is entered,
active while it is on the path that the search is following, and finished once all its edges have
been followed.  An edge to an active node closes a cycle, which is the part of the path from that
node on.  Every step enters a fresh node or uses up a root, an edge or a node of the path, so the
search ends.
-/

namespace MediaPhases

/-- How far the search has come with a node. -/
inductive Mark where
  | fresh
  | active
  | finished
deriving DecidableEq, Repr

/-- A node on the path of the search, with the edges out of it that remain to be followed. -/
structure Frame (n : Nat) where
  node : Fin n
  rest : List (Fin n)
deriving DecidableEq, Repr

/-- A state of the search. -/
structure Search (n : Nat) where
  marks : Vector Mark n
  /-- The path, the node entered last first. -/
  frames : List (Frame n)
  /-- The nodes from which the search has yet to start. -/
  roots : List (Fin n)
deriving DecidableEq, Repr

namespace Search

variable {n : Nat}

/-- The state before the search: every node is fresh and a root, in order. -/
def initial (n : Nat) : Search n where
  marks := Vector.replicate n .fresh
  frames := []
  roots := List.finRange n

/-- The nodes on the path, from the root on. -/
def path (s : Search n) : List (Fin n) :=
  (s.frames.map (·.node)).reverse

/-- What a step leads to. -/
inductive Next (n : Nat) where
  /-- Every node is finished. -/
  | done
  /-- The nodes of a cycle, which starts and ends with the same node. -/
  | cycle (nodes : List (Fin n))
  | goOn (s : Search n)
deriving DecidableEq, Repr

/-- The state after a node is entered, with the given path behind it. -/
def enter (edges : Fin n → List (Fin n)) (s : Search n) (node : Fin n) (behind : List (Frame n))
    (roots : List (Fin n)) : Search n where
  marks := s.marks.set node .active
  frames := ⟨node, edges node⟩ :: behind
  roots := roots

/-- One step of the search. -/
def step (edges : Fin n → List (Fin n)) (s : Search n) : Next n :=
  match s.frames with
  | [] =>
    match s.roots with
    | [] => .done
    | root :: roots =>
      if s.marks[root] = .fresh then .goOn (s.enter edges root [] roots)
      else .goOn { s with roots := roots }
  | ⟨node, []⟩ :: behind => .goOn { s with marks := s.marks.set node .finished, frames := behind }
  | ⟨node, next :: rest⟩ :: behind =>
    match s.marks[next] with
    | .fresh => .goOn (s.enter edges next (⟨node, rest⟩ :: behind) s.roots)
    | .active => .cycle (s.path.dropWhile (· ≠ next) ++ [next])
    | .finished => .goOn { s with frames := ⟨node, rest⟩ :: behind }

/-- The number of nodes that have not been entered. -/
def freshCount (s : Search n) : Nat :=
  s.marks.count .fresh

/-- The roots, edges and nodes of the path that remain. -/
def pending (s : Search n) : Nat :=
  s.frames.foldr (fun f total => f.rest.length + 1 + total) s.roots.length

theorem freshCount_enter {edges : Fin n → List (Fin n)} {s : Search n} {node : Fin n}
    {behind : List (Frame n)} {roots : List (Fin n)} (h : s.marks[node] = .fresh) :
    (s.enter edges node behind roots).freshCount < s.freshCount := by
  have hpos : 0 < s.marks.count .fresh := Vector.count_pos_iff.mpr (h ▸ Vector.getElem_mem _)
  have h' : s.marks[node.val] = .fresh := h
  have hne : (Mark.active == Mark.fresh) = false := rfl
  simp only [freshCount, enter, Vector.count_set, h', hne, beq_self_eq_true, if_true]
  exact Nat.sub_lt hpos Nat.one_pos

theorem freshCount_leave (s : Search n) (node : Fin n) (behind : List (Frame n)) :
    ({ s with marks := s.marks.set node .finished, frames := behind } : Search n).freshCount
      ≤ s.freshCount := by
  have hne : (Mark.finished == Mark.fresh) = false := rfl
  simp only [freshCount, Vector.count_set, hne]
  exact Nat.sub_le _ _

/-- Every step brings the search closer to its end. -/
theorem step_decreases {edges : Fin n → List (Fin n)} {s t : Search n}
    (h : s.step edges = .goOn t) :
    t.freshCount < s.freshCount ∨ t.freshCount ≤ s.freshCount ∧ t.pending < s.pending := by
  match s, h with
  | ⟨marks, [], root :: roots⟩, h =>
    simp only [step] at h
    split at h
    · rename_i hr
      cases h
      exact .inl (freshCount_enter hr)
    · cases h
      exact .inr ⟨Nat.le_refl _, by simp [pending]⟩
  | ⟨marks, ⟨node, []⟩ :: behind, roots⟩, h =>
    cases h
    exact .inr ⟨freshCount_leave _ _ _, by simp [pending]⟩
  | ⟨marks, ⟨node, next :: rest⟩ :: behind, roots⟩, h =>
    simp only [step] at h
    split at h
    · rename_i hm
      cases h
      exact .inl (freshCount_enter hm)
    · cases h
    · cases h
      exact .inr ⟨Nat.le_refl _, by simp [pending]⟩

/-- Follows the search to its end: the nodes of a cycle, if it meets one. -/
def run (edges : Fin n → List (Fin n)) (s : Search n) : Option (List (Fin n)) :=
  match _h : s.step edges with
  | .done => none
  | .cycle nodes => some nodes
  | .goOn t => run edges t
termination_by (s.freshCount, s.pending)
decreasing_by
  rcases step_decreases _h with h | ⟨h₁, h₂⟩
  · exact Prod.Lex.left _ _ h
  · rcases Nat.lt_or_eq_of_le h₁ with h₁ | h₁
    · exact Prod.Lex.left _ _ h₁
    · rw [h₁]
      exact Prod.Lex.right _ h₂

end Search

/-- The nodes of a cycle of a directed graph, if it has one. -/
def findCycle? {n : Nat} (edges : Fin n → List (Fin n)) : Option (List (Fin n)) :=
  (Search.initial n).run edges

end MediaPhases
