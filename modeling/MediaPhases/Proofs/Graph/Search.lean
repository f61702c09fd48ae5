import MediaPhases.Graph.Search
import MediaPhases.Proofs.Graph.Cycle

/-!
# The search for cycles finds one exactly when there is one

In every state of the search the active nodes are the nodes of its path, each of them once, with
an edge from each to the next, and every edge out of a finished node leads to a finished node.
Since a node is finished only when everything it leads to is, no finished node lies on a cycle.
The search ends either with every node finished, or at an edge back into its path, and then the
part of the path from there on is a simple cycle.
-/

namespace MediaPhases

/-- There is an edge from one node to another. -/
def Edge {n : ℕ} (edges : Fin n → List (Fin n)) (v w : Fin n) : Prop :=
  w ∈ edges v

namespace Search

variable {n : ℕ} {edges : Fin n → List (Fin n)} {s t : Search n}

/-- The nodes on the path, the one entered last first. -/
def nodes (frames : List (Frame n)) : List (Fin n) :=
  frames.map (·.node)

@[simp] theorem nodes_nil : nodes ([] : List (Frame n)) = [] := rfl

@[simp] theorem nodes_cons (f : Frame n) (behind : List (Frame n)) :
    nodes (f :: behind) = f.node :: nodes behind := rfl

@[simp] theorem nodes_append (above behind : List (Frame n)) :
    nodes (above ++ behind) = nodes above ++ nodes behind :=
  List.map_append

/-- The mark of a node. -/
def mark (s : Search n) (v : Fin n) : Mark :=
  s.marks.get v

/-- The state after a node is left, with the given path behind it. -/
def leave (s : Search n) (node : Fin n) (behind : List (Frame n)) : Search n :=
  { s with marks := s.marks.set node .finished node.isLt, frames := behind }

/-! ## What a step does -/

/-- The ways in which the search goes on. -/
inductive Move (edges : Fin n → List (Fin n)) (s : Search n) : Search n → Prop where
  /-- A root that is fresh is entered. -/
  | start (root : Fin n) (roots : List (Fin n))
      (hframes : s.frames = []) (hroots : s.roots = root :: roots)
      (hmark : s.mark root = .fresh) :
      Move edges s (s.enter edges root [] roots)
  /-- A root that has been entered before is passed over. -/
  | pass (root : Fin n) (roots : List (Fin n))
      (hframes : s.frames = []) (hroots : s.roots = root :: roots)
      (hmark : s.mark root ≠ .fresh) :
      Move edges s { s with roots := roots }
  /-- A node all of whose edges have been followed is left. -/
  | leave (node : Fin n) (behind : List (Frame n))
      (hframes : s.frames = ⟨node, []⟩ :: behind) :
      Move edges s (s.leave node behind)
  /-- An edge is followed into a fresh node. -/
  | follow (node next : Fin n) (rest : List (Fin n)) (behind : List (Frame n))
      (hframes : s.frames = ⟨node, next :: rest⟩ :: behind)
      (hmark : s.mark next = .fresh) :
      Move edges s (s.enter edges next (⟨node, rest⟩ :: behind) s.roots)
  /-- An edge into a finished node is passed over. -/
  | ignore (node next : Fin n) (rest : List (Fin n)) (behind : List (Frame n))
      (hframes : s.frames = ⟨node, next :: rest⟩ :: behind)
      (hmark : s.mark next = .finished) :
      Move edges s { s with frames := ⟨node, rest⟩ :: behind }

theorem move_of_step (h : s.step edges = .goOn t) : Move edges s t := by
  match s, h with
  | ⟨marks, [], root :: roots⟩, h =>
      simp only [step] at h
      split at h
      · rename_i hmark
        cases h
        exact .start root roots rfl rfl hmark
      · rename_i hmark
        cases h
        exact .pass root roots rfl rfl hmark
  | ⟨marks, ⟨node, []⟩ :: behind, roots⟩, h =>
      cases h
      exact .leave node behind rfl
  | ⟨marks, ⟨node, next :: rest⟩ :: behind, roots⟩, h =>
      simp only [step] at h
      split at h
      · rename_i hmark
        cases h
        exact .follow node next rest behind rfl hmark
      · cases h
      · rename_i hmark
        cases h
        exact .ignore node next rest behind rfl hmark

theorem step_of_move (h : Move edges s t) : s.step edges = .goOn t := by
  obtain ⟨marks, frames, roots⟩ := s
  cases h with
  | start root roots hframes hroots hmark =>
      cases hframes
      cases hroots
      exact if_pos hmark
  | pass root roots hframes hroots hmark =>
      cases hframes
      cases hroots
      exact if_neg hmark
  | leave node behind hframes =>
      cases hframes
      rfl
  | follow node next rest behind hframes hmark =>
      cases hframes
      have hmark' : marks[next] = .fresh := hmark
      simp only [step, hmark']
  | ignore node next rest behind hframes hmark =>
      cases hframes
      have hmark' : marks[next] = .finished := hmark
      simp only [step, hmark']

theorem of_step_eq_done (h : s.step edges = .done) :
    s.frames = [] ∧ s.roots = [] := by
  match s, h with
  | ⟨marks, [], []⟩, _ => exact ⟨rfl, rfl⟩
  | ⟨marks, [], root :: roots⟩, h =>
      simp only [step] at h
      split at h <;> cases h
  | ⟨marks, ⟨node, next :: rest⟩ :: behind, roots⟩, h =>
      simp only [step] at h
      split at h <;> cases h

/-- The search stops at an edge from the end of its path back into the path. -/
theorem of_step_eq_cycle {found : List (Fin n)} (h : s.step edges = .cycle found) :
    ∃ node next rest behind, s.frames = ⟨node, next :: rest⟩ :: behind ∧
      s.mark next = .active ∧ found = s.path.dropWhile (· ≠ next) ++ [next] := by
  match s, h with
  | ⟨marks, [], root :: roots⟩, h =>
      simp only [step] at h
      split at h <;> cases h
  | ⟨marks, ⟨node, next :: rest⟩ :: behind, roots⟩, h =>
      simp only [step] at h
      split at h
      · cases h
      · rename_i hmark
        cases h
        exact ⟨node, next, rest, behind, rfl, hmark, rfl⟩
      · cases h

theorem step_of_active {node next : Fin n} {rest : List (Fin n)} {behind : List (Frame n)}
    (hframes : s.frames = ⟨node, next :: rest⟩ :: behind) (hmark : s.mark next = .active) :
    s.step edges = .cycle (s.path.dropWhile (· ≠ next) ++ [next]) := by
  obtain ⟨marks, frames, roots⟩ := s
  cases hframes
  have hmark' : marks[next] = .active := hmark
  simp only [step, hmark']

theorem step_of_nil (hframes : s.frames = []) (hroots : s.roots = []) :
    s.step edges = .done := by
  obtain ⟨marks, frames, roots⟩ := s
  cases hframes
  cases hroots
  rfl

theorem get_set (marks : Vector Mark n) (v w : Fin n) (m : Mark) :
    (marks.set v m v.isLt).get w = if v = w then m else marks.get w := by
  simp only [Fin.ext_iff]
  exact Vector.getElem_set v.isLt w.isLt

@[simp] theorem initial_frames : (initial n).frames = [] := rfl

@[simp] theorem initial_mark (v : Fin n) : (initial n).mark v = .fresh :=
  Vector.getElem_replicate v.isLt

section Steps

variable (s : Search n) (node : Fin n) (behind : List (Frame n)) (roots : List (Fin n))

@[simp] theorem leave_mark (v : Fin n) :
    (s.leave node behind).mark v = if node = v then .finished else s.mark v :=
  get_set s.marks node v .finished

@[simp] theorem leave_frames : (s.leave node behind).frames = behind := rfl

@[simp] theorem leave_roots : (s.leave node behind).roots = s.roots := rfl

@[simp] theorem enter_mark (v : Fin n) :
    (s.enter edges node behind roots).mark v = if node = v then .active else s.mark v :=
  get_set s.marks node v .active

@[simp] theorem enter_frames :
    (s.enter edges node behind roots).frames = ⟨node, edges node⟩ :: behind := rfl

@[simp] theorem enter_roots : (s.enter edges node behind roots).roots = roots := rfl

end Steps

/-! ## The invariant -/

/-- What holds in every state of the search. -/
structure Invariant (edges : Fin n → List (Fin n)) (s : Search n) : Prop where
  /-- The active nodes are those of the path. -/
  active_iff : ∀ v, s.mark v = .active ↔ v ∈ nodes s.frames
  nodup : (nodes s.frames).Nodup
  linked : (nodes s.frames).IsChain fun v w => Edge edges w v
  rest_subset : ∀ f ∈ s.frames, f.rest ⊆ edges f.node
  /-- An edge out of the path that does not remain to be followed leads to a finished node or
  further along the path. -/
  followed : ∀ above f behind, s.frames = above ++ f :: behind →
    ∀ w, Edge edges f.node w → w ∈ f.rest ∨ s.mark w = .finished ∨ w ∈ nodes above
  closed : ∀ v, s.mark v = .finished → ∀ w, Edge edges v w → s.mark w = .finished
  not_onCycle : ∀ v, s.mark v = .finished → ¬Relation.TransGen (Edge edges) v v
  /-- A node that has not been entered is still a root. -/
  mem_roots : ∀ v, s.mark v = .fresh → v ∈ s.roots

theorem invariant_initial (edges : Fin n → List (Fin n)) : Invariant edges (initial n) where
  active_iff v := by simp
  nodup := by simp
  linked := by simp
  rest_subset := by simp
  followed := by simp
  closed v hv := by simp at hv
  not_onCycle v hv := by simp at hv
  mem_roots v _ := List.mem_finRange v

namespace Invariant

/-- Everything that a finished node leads to is finished. -/
theorem finished_of_transGen (h : Invariant edges s) {v w : Fin n}
    (hv : s.mark v = .finished) (hvw : Relation.TransGen (Edge edges) v w) :
    s.mark w = .finished := by
  induction hvw with
  | single hedge => exact h.closed _ hv _ hedge
  | tail _ hedge ih => exact h.closed _ ih _ hedge

theorem node_active (h : Invariant edges s) {node : Fin n} {rest : List (Fin n)}
    {behind : List (Frame n)} (hframes : s.frames = ⟨node, rest⟩ :: behind) :
    s.mark node = .active := by
  rw [h.active_iff, hframes]
  exact List.mem_cons_self

/-- Entering a fresh node keeps the invariant, if it is entered from the end of the path and the
edge that leads to it is the one that was used up. -/
theorem enter (h : Invariant edges s) {node : Fin n} {behind : List (Frame n)}
    {roots : List (Fin n)} (hmark : s.mark node = .fresh)
    (hnodes : nodes behind = nodes s.frames)
    (hhead : ∀ w ∈ (nodes behind).head?, Edge edges w node)
    (hsubset : ∀ f ∈ behind, f.rest ⊆ edges f.node)
    (hfollowed : ∀ above f below, behind = above ++ f :: below →
      ∀ w, Edge edges f.node w →
        w ∈ f.rest ∨ s.mark w = .finished ∨ w = node ∨ w ∈ nodes above)
    (hroots : ∀ v, s.mark v = .fresh → v ≠ node → v ∈ roots) :
    Invariant edges (s.enter edges node behind roots) := by
  have hfresh : node ∉ nodes s.frames := by
    rw [← h.active_iff, hmark]
    decide
  have hfinished : ∀ v : Fin n, (s.enter edges node behind roots).mark v = .finished ↔
      s.mark v = .finished := by
    intro v
    rw [enter_mark]
    split
    · rename_i hv
      rw [← hv, hmark]
      decide
    · exact Iff.rfl
  constructor
  case active_iff =>
    intro v
    rw [enter_mark, enter_frames, nodes_cons, List.mem_cons, hnodes, ← h.active_iff]
    by_cases hv : node = v
    · simp [hv]
    · simp [hv, Ne.symm hv]
  case nodup =>
    rw [enter_frames, nodes_cons, hnodes]
    exact List.nodup_cons.mpr ⟨hfresh, h.nodup⟩
  case linked =>
    rw [enter_frames, nodes_cons]
    refine List.isChain_cons.mpr ⟨hhead, ?_⟩
    rw [hnodes]
    exact h.linked
  case rest_subset =>
    intro f hf
    rw [enter_frames] at hf
    rcases List.mem_cons.mp hf with rfl | hf
    · exact List.Subset.refl _
    · exact hsubset f hf
  case followed =>
    intro above f below hsplit w hw
    rw [enter_frames] at hsplit
    rw [hfinished]
    rcases List.cons_eq_append_iff.mp hsplit with ⟨rfl, hcons⟩ | ⟨above', rfl, hsplit'⟩
    · cases hcons
      exact .inl hw
    · rcases hfollowed above' f below hsplit' w hw with hrest | hdone | hnode | habove
      · exact .inl hrest
      · exact .inr (.inl hdone)
      · exact .inr (.inr (List.mem_cons.mpr (.inl hnode)))
      · exact .inr (.inr (List.mem_cons_of_mem _ habove))
  case closed =>
    intro v hv w hw
    rw [hfinished] at hv ⊢
    exact h.closed v hv w hw
  case not_onCycle =>
    intro v hv
    rw [hfinished] at hv
    exact h.not_onCycle v hv
  case mem_roots =>
    intro v hv
    rw [enter_mark] at hv
    split at hv
    · cases hv
    · rename_i hne
      exact hroots v hv (Ne.symm hne)

/-- Passing over a root that has been entered keeps the invariant. -/
theorem pass (h : Invariant edges s) {root : Fin n} {roots : List (Fin n)}
    (hroots : s.roots = root :: roots) (hmark : s.mark root ≠ .fresh) :
    Invariant edges { s with roots := roots } := by
  refine { h with mem_roots := ?_ }
  intro v hv
  have hmem : v ∈ root :: roots := hroots ▸ h.mem_roots v hv
  rcases List.mem_cons.mp hmem with rfl | hmem
  · exact absurd hv hmark
  · exact hmem

/-- Passing over an edge into a finished node keeps the invariant. -/
theorem ignore (h : Invariant edges s) {node next : Fin n} {rest : List (Fin n)}
    {behind : List (Frame n)} (hframes : s.frames = ⟨node, next :: rest⟩ :: behind)
    (hmark : s.mark next = .finished) :
    Invariant edges { s with frames := ⟨node, rest⟩ :: behind } := by
  have hnodes : nodes (⟨node, rest⟩ :: behind) = nodes s.frames := by
    rw [hframes]
    rfl
  refine { h with
    active_iff := ?_, nodup := ?_, linked := ?_, rest_subset := ?_, followed := ?_ }
  · intro v
    rw [hnodes]
    exact h.active_iff v
  · rw [hnodes]
    exact h.nodup
  · rw [hnodes]
    exact h.linked
  · intro f hf
    rcases List.mem_cons.mp hf with rfl | hf
    · exact List.subset_of_cons_subset (h.rest_subset ⟨node, next :: rest⟩ (by simp [hframes]))
    · exact h.rest_subset f (by simp [hframes, hf])
  · intro above f below hsplit w hw
    rcases List.cons_eq_append_iff.mp hsplit with ⟨rfl, hcons⟩ | ⟨above', rfl, hsplit'⟩
    · cases hcons
      rcases h.followed [] ⟨node, next :: rest⟩ behind hframes w hw with hrest | hother
      · rcases List.mem_cons.mp hrest with rfl | hrest
        · exact .inr (.inl hmark)
        · exact .inl hrest
      · exact .inr hother
    · have hbefore : s.frames = (⟨node, next :: rest⟩ :: above') ++ f :: below := by
        rw [hframes, hsplit', List.cons_append]
      exact h.followed _ f below hbefore w hw

/-- The node that is left leads to finished nodes only. -/
theorem finished_of_edge (h : Invariant edges s) {node w : Fin n} {behind : List (Frame n)}
    (hframes : s.frames = ⟨node, []⟩ :: behind) (hw : Edge edges node w) :
    s.mark w = .finished := by
  rcases h.followed [] ⟨node, []⟩ behind hframes w hw with hrest | hdone | habove
  · cases hrest
  · exact hdone
  · cases habove

/-- Leaving a node keeps the invariant. -/
theorem leave (h : Invariant edges s) {node : Fin n} {behind : List (Frame n)}
    (hframes : s.frames = ⟨node, []⟩ :: behind) :
    Invariant edges (s.leave node behind) := by
  have hactive : s.mark node = .active := h.node_active hframes
  have hnodup : node ∉ nodes behind ∧ (nodes behind).Nodup := by
    have hall := h.nodup
    rw [hframes] at hall
    exact List.nodup_cons.mp hall
  have hmono : ∀ w : Fin n, s.mark w = .finished →
      (s.leave node behind).mark w = .finished := by
    intro w hw
    rw [leave_mark]
    split
    · rfl
    · exact hw
  constructor
  case active_iff =>
    intro v
    rw [leave_mark]
    have hbefore := h.active_iff v
    rw [hframes, nodes_cons, List.mem_cons] at hbefore
    by_cases hv : node = v
    · subst hv
      simp [hnodup.1]
    · rw [if_neg hv, hbefore]
      simp [Ne.symm hv]
  case nodup => exact hnodup.2
  case linked =>
    have hall := h.linked
    rw [hframes] at hall
    exact hall.tail
  case rest_subset =>
    intro f hf
    rw [leave_frames] at hf
    exact h.rest_subset f (by simp [hframes, hf])
  case followed =>
    intro above f below hsplit w hw
    have hbehind : behind = above ++ f :: below := hsplit
    have hbefore : s.frames = (⟨node, []⟩ :: above) ++ f :: below := by
      rw [hframes, hbehind, List.cons_append]
    rcases h.followed _ f below hbefore w hw with hrest | hdone | habove
    · exact .inl hrest
    · exact .inr (.inl (hmono w hdone))
    · rcases List.mem_cons.mp habove with rfl | habove
      · exact .inr (.inl (by rw [leave_mark, if_pos rfl]))
      · exact .inr (.inr habove)
  case closed =>
    intro v hv w hw
    rw [leave_mark] at hv
    apply hmono
    split at hv
    · rename_i hnode
      exact h.finished_of_edge hframes (hnode ▸ hw)
    · exact h.closed v hv w hw
  case not_onCycle =>
    intro v hv
    rw [leave_mark] at hv
    split at hv
    · -- A cycle through the node would run through finished nodes alone and so never come back.
      rename_i hnode
      subst hnode
      intro hcycle
      obtain ⟨w, hedge, hback⟩ := Relation.TransGen.head'_iff.mp hcycle
      have hdone := h.finished_of_edge hframes hedge
      have hnode : s.mark node = .finished := by
        rcases Relation.reflTransGen_iff_eq_or_transGen.mp hback with heq | htrans
        · rw [heq]
          exact hdone
        · exact h.finished_of_transGen hdone htrans
      rw [hactive] at hnode
      cases hnode
    · exact h.not_onCycle v hv
  case mem_roots =>
    intro v hv
    rw [leave_mark] at hv
    split at hv
    · cases hv
    · exact h.mem_roots v hv

/-- Following an edge into a fresh node keeps the invariant. -/
theorem follow (h : Invariant edges s) {node next : Fin n} {rest : List (Fin n)}
    {behind : List (Frame n)} (hframes : s.frames = ⟨node, next :: rest⟩ :: behind)
    (hmark : s.mark next = .fresh) :
    Invariant edges (s.enter edges next (⟨node, rest⟩ :: behind) s.roots) := by
  have hsubset : next :: rest ⊆ edges node :=
    h.rest_subset ⟨node, next :: rest⟩ (by simp [hframes])
  apply h.enter hmark
  case hnodes => simp [hframes]
  case hhead =>
    intro w hw
    obtain rfl : node = w := by simpa using hw
    exact hsubset List.mem_cons_self
  case hsubset =>
    intro f hf
    rcases List.mem_cons.mp hf with rfl | hf
    · exact List.subset_of_cons_subset hsubset
    · exact h.rest_subset f (by simp [hframes, hf])
  case hfollowed =>
    intro above f below hsplit w hw
    rcases List.cons_eq_append_iff.mp hsplit with ⟨rfl, hcons⟩ | ⟨above', rfl, hsplit'⟩
    · cases hcons
      rcases h.followed [] ⟨node, next :: rest⟩ behind hframes w hw with hrest | hdone | habove
      · rcases List.mem_cons.mp hrest with rfl | hrest
        · exact .inr (.inr (.inl rfl))
        · exact .inl hrest
      · exact .inr (.inl hdone)
      · cases habove
    · have hbefore : s.frames = (⟨node, next :: rest⟩ :: above') ++ f :: below := by
        rw [hframes, hsplit', List.cons_append]
      rcases h.followed _ f below hbefore w hw with hrest | hdone | habove
      · exact .inl hrest
      · exact .inr (.inl hdone)
      · exact .inr (.inr (.inr habove))
  case hroots =>
    intro v hv _
    exact h.mem_roots v hv

/-- Entering a fresh root keeps the invariant. -/
theorem start (h : Invariant edges s) {root : Fin n} {roots : List (Fin n)}
    (hframes : s.frames = []) (hroots : s.roots = root :: roots)
    (hmark : s.mark root = .fresh) :
    Invariant edges (s.enter edges root [] roots) := by
  apply h.enter hmark
  case hnodes => rw [hframes]
  case hhead => simp
  case hsubset => simp
  case hfollowed => simp
  case hroots =>
    intro v hv hne
    have hmem : v ∈ root :: roots := hroots ▸ h.mem_roots v hv
    exact List.mem_of_ne_of_mem hne hmem

/-- Every step keeps the invariant. -/
theorem step (h : Invariant edges s) (hs : s.step edges = .goOn t) : Invariant edges t := by
  cases move_of_step hs with
  | start root roots hframes hroots hmark => exact h.start hframes hroots hmark
  | pass root roots hframes hroots hmark => exact h.pass hroots hmark
  | leave node behind hframes => exact h.leave hframes
  | follow node next rest behind hframes hmark => exact h.follow hframes hmark
  | ignore node next rest behind hframes hmark => exact h.ignore hframes hmark

/-! ## How the search ends -/

/-- When the search is done every node is finished. -/
theorem finished_of_done (h : Invariant edges s) (hs : s.step edges = .done) (v : Fin n) :
    s.mark v = .finished := by
  obtain ⟨hframes, hroots⟩ := of_step_eq_done hs
  cases hv : s.mark v with
  | fresh =>
      have hmem := h.mem_roots v hv
      rw [hroots] at hmem
      cases hmem
  | active =>
      have hmem := (h.active_iff v).mp hv
      rw [hframes] at hmem
      cases hmem
  | finished => rfl

/-- When the search is done there are no cycles. -/
theorem acyclic_of_done (h : Invariant edges s) (hs : s.step edges = .done) :
    Acyclic (Edge edges) :=
  fun v => h.not_onCycle v (h.finished_of_done hs v)

theorem path_nodup (h : Invariant edges s) : s.path.Nodup :=
  List.nodup_reverse.mpr h.nodup

theorem path_linked (h : Invariant edges s) : s.path.IsChain (Edge edges) :=
  List.isChain_reverse.mpr h.linked

/-- When the search stops at a cycle, what it has found is a simple cycle. -/
theorem isSimpleCycle_of_step (h : Invariant edges s) {found : List (Fin n)}
    (hs : s.step edges = .cycle found) : IsSimpleCycle (Edge edges) found := by
  obtain ⟨node, next, rest, behind, hframes, hmark, rfl⟩ := of_step_eq_cycle hs
  have hedge : Edge edges node next :=
    h.rest_subset ⟨node, next :: rest⟩ (by simp [hframes]) List.mem_cons_self
  have hlast : s.path.getLast? = some node := by
    simp [path, hframes]
  have hmem : next ∈ s.path :=
    List.mem_reverse.mpr ((h.active_iff next).mp hmark)
  exact isSimpleCycle_of_back_step h.path_linked h.path_nodup hlast hedge hmem

end Invariant

/-! ## Whole searches -/

/-- The states that the search comes through. -/
inductive Reached (edges : Fin n → List (Fin n)) : Search n → Prop where
  | initial : Reached edges (Search.initial n)
  | step {s t : Search n} (hs : Reached edges s) (h : s.step edges = .goOn t) : Reached edges t

/-- Every state that the search comes through satisfies the invariant. -/
theorem Reached.invariant (h : Reached edges s) : Invariant edges s := by
  induction h with
  | initial => exact invariant_initial edges
  | step _ hstep ih => exact ih.step hstep

theorem run_eq (edges : Fin n → List (Fin n)) (s : Search n) :
    s.run edges =
      match s.step edges with
      | .done => none
      | .cycle found => some found
      | .goOn t => t.run edges := by
  rw [run]
  split
  · rename_i hdone
    rw [hdone]
  · rename_i found hcycle
    rw [hcycle]
  · rename_i t hgo
    rw [hgo]

/-- The search ends in a state that it has come through, where it is done or has found a cycle. -/
theorem Reached.run_cases (h : Reached edges s) :
    ∃ t, Reached edges t ∧
      (t.step edges = .done ∧ s.run edges = none ∨
        ∃ found, t.step edges = .cycle found ∧ s.run edges = some found) := by
  fun_induction run edges s with
  | case1 s hdone => exact ⟨s, h, .inl ⟨hdone, rfl⟩⟩
  | case2 s found hcycle => exact ⟨s, h, .inr ⟨found, hcycle, rfl⟩⟩
  | case3 s t hgo ih => exact ih (h.step hgo)

end Search

section Find

variable {n : ℕ} {edges : Fin n → List (Fin n)}

/-- What the search reports is a simple cycle. -/
theorem isSimpleCycle_of_findCycle? {found : List (Fin n)} (h : findCycle? edges = some found) :
    IsSimpleCycle (Edge edges) found := by
  have hstart : Search.Reached edges (Search.initial n) := .initial
  obtain ⟨t, ht, ⟨-, hnone⟩ | ⟨found', hcycle, hsome⟩⟩ := hstart.run_cases
  · rw [findCycle?, hnone] at h
    cases h
  · rw [findCycle?, hsome] at h
    cases h
    exact ht.invariant.isSimpleCycle_of_step hcycle

/-- The search finds nothing exactly when there are no cycles. -/
theorem findCycle?_eq_none_iff : findCycle? edges = none ↔ Acyclic (Edge edges) := by
  constructor
  · intro h
    have hstart : Search.Reached edges (Search.initial n) := .initial
    obtain ⟨t, ht, ⟨hdone, -⟩ | ⟨found, -, hsome⟩⟩ := hstart.run_cases
    · exact ht.invariant.acyclic_of_done hdone
    · rw [findCycle?, hsome] at h
      cases h
  · intro hacyclic
    cases h : findCycle? edges with
    | none => rfl
    | some found => exact absurd hacyclic (isSimpleCycle_of_findCycle? h).not_acyclic

end Find

end MediaPhases
