import MediaPhases.Graph.Basic
import Mathlib.Data.List.Basic
import Mathlib.Data.List.FinRange
import Mathlib.Data.List.Induction
import Mathlib.Data.List.Nodup

/-!
# The tables of a graph

Two loops fill the tables of a graph.  The first one gives each name its position.  The second one
goes through the phases in declared order and through the prerequisites of each, and enters every
new edge in two tables, one for each direction.  At every moment each of the tables is the converse
of the other, no edge stands in a table twice, and the phases that require another one stand in
declared order.
-/

namespace MediaPhases

/-- A loop that checks each entry before it goes on comes to the end exactly when no check fails,
and then has done what it does without the checks. -/
theorem foldlM_checked
    {ε σ α : Type} (check : α → Option ε) (f : σ → α → σ) (l : List α) (s : σ) :
    l.foldlM (fun s a => (check a).elim (Except.ok (f s a)) .error) s =
      (l.findSome? check).elim (.ok (l.foldl f s)) .error := by
  induction l generalizing s with
  | nil => rfl
  | cons a rest ih =>
      rw [List.foldlM_cons, List.findSome?_cons, List.foldl_cons]
      cases check a with
      | some defect => rfl
      | none => exact ih (f s a)

namespace EdgeTables

variable {n : ℕ} {t : EdgeTables n} {i j d : Fin n}

/-- The two tables when the phases before a position have been gone through. -/
structure InStep (t : EdgeTables n) (done : ℕ) : Prop where
  edges_length : t.edges.length = n
  backEdges_length : t.backEdges.length = n
  /-- Each table is the converse of the other. -/
  converse : ∀ i d, i ∈ t.backEdgesOf d ↔ d ∈ t.edgesOf i
  nodup : ∀ i, (t.edgesOf i).Nodup
  /-- The phases that require another one stand in declared order. -/
  increasing : ∀ d, (t.backEdgesOf d).Pairwise (· < ·)
  /-- The other phases have no prerequisites yet. -/
  untouched : ∀ i, done ≤ i.val → t.edgesOf i = []

/-! ## One edge -/

theorem getD_modify {α : Type} {table : List (List α)} (hlength : table.length = n)
    (i j : Fin n) (a : α) :
    ((table.modify i.val (· ++ [a]))[j.val]?).getD [] =
      if i = j then (table[j.val]?).getD [] ++ [a] else (table[j.val]?).getD [] := by
  have hj : j.val < table.length := by
    rw [hlength]
    exact j.isLt
  rw [List.getElem?_modify, List.getElem?_eq_getElem hj]
  by_cases hij : i = j
  · simp [hij]
  · have hval : i.val ≠ j.val := fun h => hij (Fin.ext h)
    simp [hij, hval]

theorem link_of_mem (hd : d ∈ t.edgesOf i) : t.link i d = t := by
  rw [link, if_pos (List.contains_iff_mem.mpr hd)]

theorem link_of_notMem (hd : d ∉ t.edgesOf i) :
    t.link i d =
      { edges := t.edges.modify i (· ++ [d]), backEdges := t.backEdges.modify d (· ++ [i]) } := by
  rw [link, if_neg (mt List.contains_iff_mem.mp hd)]

theorem edgesOf_link (hlength : t.edges.length = n) (hd : d ∉ t.edgesOf i) (j : Fin n) :
    (t.link i d).edgesOf j = if i = j then t.edgesOf j ++ [d] else t.edgesOf j := by
  rw [link_of_notMem hd]
  exact getD_modify hlength i j d

theorem backEdgesOf_link (hlength : t.backEdges.length = n) (hd : d ∉ t.edgesOf i) (j : Fin n) :
    (t.link i d).backEdgesOf j = if d = j then t.backEdgesOf j ++ [i] else t.backEdgesOf j := by
  rw [link_of_notMem hd]
  exact getD_modify hlength d j i

theorem edges_length_link (hlength : t.edges.length = n) : (t.link i d).edges.length = n := by
  rw [link]
  split
  · exact hlength
  · rw [List.length_modify, hlength]

theorem edgesOf_link_of_ne (hlength : t.edges.length = n) (hij : i ≠ j) :
    (t.link i d).edgesOf j = t.edgesOf j := by
  by_cases hd : d ∈ t.edgesOf i
  · rw [link_of_mem hd]
  · rw [edgesOf_link hlength hd, if_neg hij]

namespace InStep

variable {done later : ℕ}

theorem empty (n : ℕ) : InStep (.empty n) 0 := by
  have hedges : ∀ i, (EdgeTables.empty n).edgesOf i = [] := fun i => by
    simp [EdgeTables.empty, edgesOf]
  have hbackEdges : ∀ d, (EdgeTables.empty n).backEdgesOf d = [] := fun d => by
    simp [EdgeTables.empty, backEdgesOf]
  constructor
  case edges_length => exact List.length_replicate
  case backEdges_length => exact List.length_replicate
  case converse => simp [hedges, hbackEdges]
  case nodup => simp [hedges]
  case increasing => simp [hbackEdges]
  case untouched => simp [hedges]

theorem mono (h : t.InStep done) (hlater : done ≤ later) : t.InStep later where
  edges_length := h.edges_length
  backEdges_length := h.backEdges_length
  converse := h.converse
  nodup := h.nodup
  increasing := h.increasing
  untouched := fun i hi => h.untouched i (Nat.le_trans hlater hi)

theorem lt_of_mem (h : t.InStep done) (hd : d ∈ t.edgesOf i) : i.val < done := by
  by_contra hlate
  rw [h.untouched i (Nat.le_of_not_lt hlate)] at hd
  cases hd

/-- One more prerequisite of the phase that is being gone through keeps the tables in step. -/
theorem link (h : t.InStep (i.val + 1)) (d : Fin n) : (t.link i d).InStep (i.val + 1) := by
  by_cases hd : d ∈ t.edgesOf i
  · rw [link_of_mem hd]
    exact h
  have hedges := edgesOf_link h.edges_length hd
  have hbackEdges := backEdgesOf_link h.backEdges_length hd
  have hi : i ∉ t.backEdgesOf d := mt (h.converse i d).mp hd
  constructor
  case edges_length => exact edges_length_link h.edges_length
  case backEdges_length =>
    rw [link_of_notMem hd]
    exact (List.length_modify ..).trans h.backEdges_length
  case converse =>
    intro j e
    rw [hedges, hbackEdges]
    by_cases hde : d = e
    · by_cases hij : i = j
      · simp [hde, hij]
      · simp [hde, hij, Ne.symm hij, h.converse]
    · by_cases hij : i = j
      · simp [hde, hij, Ne.symm hde, h.converse]
      · simp [hde, hij, h.converse]
  case nodup =>
    intro j
    rw [hedges]
    split
    · rename_i hij
      rw [← hij, ← List.concat_eq_append]
      exact (h.nodup i).concat hd
    · exact h.nodup j
  case increasing =>
    -- The phases that stand there come before this one, which does not stand there yet.
    intro e
    rw [hbackEdges]
    split
    · rename_i hde
      rw [← hde]
      refine List.pairwise_append.mpr ⟨h.increasing d, List.pairwise_singleton _ _, ?_⟩
      intro j hj k hk
      rw [List.mem_singleton.mp hk]
      have hle : j.val ≤ i.val := Nat.le_of_lt_succ (h.lt_of_mem ((h.converse j d).mp hj))
      have hne : j ≠ i := fun hji => hi (hji ▸ hj)
      exact lt_of_le_of_ne hle hne
    · exact h.increasing e
  case untouched =>
    intro j hj
    have hij : i ≠ j := by
      rintro rfl
      exact Nat.not_succ_le_self _ hj
    rw [hedges, if_neg hij]
    exact h.untouched j hj

end InStep

/-! ## The prerequisites of a phase -/

/-- The tables with more prerequisites of one phase. -/
def linkAll (t : EdgeTables n) (i : Fin n) (ds : List (Fin n)) : EdgeTables n :=
  ds.foldl (·.link i ·) t

theorem linkAll_concat (ds : List (Fin n)) :
    t.linkAll i (ds ++ [d]) = (t.linkAll i ds).link i d :=
  List.foldl_append

theorem InStep.linkAll (h : t.InStep i.val) (ds : List (Fin n)) :
    (t.linkAll i ds).InStep (i.val + 1) := by
  induction ds using List.reverseRecOn with
  | nil => exact h.mono (Nat.le_succ i.val)
  | append_singleton front d ih =>
      rw [linkAll_concat]
      exact ih.link d

/-- The phase gets the prerequisites written, each once. -/
theorem edgesOf_linkAll (h : t.InStep i.val) (ds : List (Fin n)) :
    (t.linkAll i ds).edgesOf i = ds.eraseDups := by
  induction ds using List.reverseRecOn with
  | nil => exact h.untouched i (Nat.le_refl _)
  | append_singleton front d ih =>
      rw [linkAll_concat, List.eraseDups_append]
      by_cases hd : d ∈ front
      · have hold : d ∈ (t.linkAll i front).edgesOf i := by
          rw [ih, List.mem_eraseDups]
          exact hd
        have hnone : [d].removeAll front = [] := by simp [List.removeAll, hd]
        rw [link_of_mem hold, ih, hnone, List.eraseDups_nil, List.append_nil]
      · have hnew : d ∉ (t.linkAll i front).edgesOf i := by
          rw [ih, List.mem_eraseDups]
          exact hd
        have hone : [d].removeAll front = [d] := by simp [List.removeAll, hd]
        rw [edgesOf_link (h.linkAll front).edges_length hnew, if_pos rfl, ih, hone]
        rfl

theorem edgesOf_linkAll_of_ne (h : t.InStep i.val) (hij : i ≠ j) (ds : List (Fin n)) :
    (t.linkAll i ds).edgesOf j = t.edgesOf j := by
  induction ds using List.reverseRecOn with
  | nil => rfl
  | append_singleton front d ih =>
      rw [linkAll_concat, edgesOf_link_of_ne (h.linkAll front).edges_length hij, ih]

/-! ## All phases -/

/-- The tables after phases that come one after the other, each with its prerequisites. -/
def fill (t : EdgeTables n) (entries : List (Fin n × List (Fin n))) : EdgeTables n :=
  entries.foldl (fun t entry => t.linkAll entry.1 entry.2) t

theorem fill_cons (entry : Fin n × List (Fin n)) (rest : List (Fin n × List (Fin n))) :
    t.fill (entry :: rest) = (t.linkAll entry.1 entry.2).fill rest := rfl

section Fill

variable {entries : List (Fin n × List (Fin n))} {done : ℕ}

/-- The tables are in step after all phases, if they were before and the phases come in declared
order. -/
theorem InStep.fill (h : t.InStep done) (hlate : ∀ entry ∈ entries, done ≤ entry.1.val)
    (horder : (entries.map Prod.fst).Pairwise (· < ·)) :
    ∃ all, (t.fill entries).InStep all := by
  induction entries generalizing t done with
  | nil => exact ⟨done, h⟩
  | cons entry rest ih =>
      rw [List.map_cons, List.pairwise_cons] at horder
      have hready := h.mono (hlate entry List.mem_cons_self)
      rw [fill_cons]
      refine ih (hready.linkAll entry.2) (fun later hlater => ?_) horder.2
      exact horder.1 later.1 (List.mem_map_of_mem hlater)

/-- The prerequisites of the other phases stay as they are. -/
theorem edgesOf_fill_of_notMem
    (h : t.InStep done) (hlate : ∀ entry ∈ entries, done ≤ entry.1.val)
    (horder : (entries.map Prod.fst).Pairwise (· < ·)) (hj : j ∉ entries.map Prod.fst) :
    (t.fill entries).edgesOf j = t.edgesOf j := by
  induction entries generalizing t done with
  | nil => rfl
  | cons entry rest ih =>
      rw [List.map_cons, List.pairwise_cons] at horder
      rw [List.map_cons, List.mem_cons, not_or] at hj
      have hready := h.mono (hlate entry List.mem_cons_self)
      rw [fill_cons, ih (hready.linkAll entry.2) (fun later hlater => ?_) horder.2 hj.2]
      · exact edgesOf_linkAll_of_ne hready (Ne.symm hj.1) entry.2
      · exact horder.1 later.1 (List.mem_map_of_mem hlater)

/-- Each phase gets the prerequisites written, each once. -/
theorem edgesOf_fill
    (h : t.InStep done) (hlate : ∀ entry ∈ entries, done ≤ entry.1.val)
    (horder : (entries.map Prod.fst).Pairwise (· < ·)) {ds : List (Fin n)}
    (hentry : (i, ds) ∈ entries) : (t.fill entries).edgesOf i = ds.eraseDups := by
  induction entries generalizing t done with
  | nil => cases hentry
  | cons entry rest ih =>
      rw [List.map_cons, List.pairwise_cons] at horder
      have hready := (h.mono (hlate entry List.mem_cons_self)).linkAll entry.2
      have hlater : ∀ later ∈ rest, entry.1.val + 1 ≤ later.1.val :=
        fun later hlater => horder.1 later.1 (List.mem_map_of_mem hlater)
      rw [fill_cons]
      rcases List.mem_cons.mp hentry with rfl | hrest
      · have hnew : i ∉ rest.map Prod.fst := fun hi => lt_irrefl i (horder.1 i hi)
        rw [edgesOf_fill_of_notMem hready hlater horder.2 hnew]
        exact edgesOf_linkAll (h.mono (hlate _ List.mem_cons_self)) ds
      · exact ih hready hlater horder.2 hrest

end Fill

end EdgeTables

end MediaPhases
