import MediaPhases.Proofs.Graph.Tables
import Mathlib

/-!
# The graph of a list of phases

The loops that build a graph check as they go.  Without the checks they give a graph for every list
of phases, and this is the graph that is built when no check fails.  The first check that fails is
found by going through the list once for each rule: for the names, for the prerequisites, for
cycles and for the run-if conditions.
-/

namespace MediaPhases

/-- Checks that no name equals an earlier one, letter case aside; `seen` are the names before the
list, in order. -/
def Policy.checkDistinct (seen : List String) : List String → Except PolicyDefect Unit
  | [] => .ok ()
  | name :: rest =>
    match namesake? seen name with
    | some existing => .error (.duplicatePhase name existing)
    | none => checkDistinct (seen ++ [name]) rest

/-! ## Positions of names -/

section Index

variable {n : ℕ}

/-- The index with the positions of more phases. -/
def fileAll (m : NameMap (Fin n)) (entries : List (Fin n × Phase)) : NameMap (Fin n) :=
  entries.foldl (fun m entry => m.insert entry.2.name entry.1) m

variable {m : NameMap (Fin n)} {entries : List (Fin n × Phase)} {name : String}

theorem fileAll_cons (entry : Fin n × Phase) (rest : List (Fin n × Phase)) :
    fileAll m (entry :: rest) = fileAll (m.insert entry.2.name entry.1) rest := rfl

theorem get?_fileAll_of_notMem (hname : name ∉ entries.map (·.2.name)) :
    (fileAll m entries).get? name = m.get? name := by
  induction entries generalizing m with
  | nil => rfl
  | cons entry rest ih =>
      rw [List.map_cons, List.mem_cons, not_or] at hname
      rw [fileAll_cons, ih hname.2, NameMap.get?_insert, if_neg hname.1]

/-- A name is in the index when a phase of it has been gone through. -/
theorem exists_get?_fileAll (hname : name ∈ entries.map (·.2.name)) :
    ∃ i, (fileAll m entries).get? name = some i := by
  induction entries generalizing m with
  | nil => cases hname
  | cons entry rest ih =>
      rw [fileAll_cons]
      by_cases hrest : name ∈ rest.map (·.2.name)
      · exact ih hrest
      · have hfirst : name = entry.2.name := by simpa [hrest] using hname
        refine ⟨entry.1, ?_⟩
        rw [get?_fileAll_of_notMem hrest, NameMap.get?_insert, if_pos hfirst]

/-- Where names are distinct, each one has the position of its phase. -/
theorem get?_fileAll_of_mem (hnames : (entries.map (·.2.name)).Nodup) {i : Fin n} {phase : Phase}
    (hentry : (i, phase) ∈ entries) : (fileAll m entries).get? phase.name = some i := by
  induction entries generalizing m with
  | nil => cases hentry
  | cons entry rest ih =>
      rw [List.map_cons, List.nodup_cons] at hnames
      rw [fileAll_cons]
      rcases List.mem_cons.mp hentry with rfl | hrest
      · rw [get?_fileAll_of_notMem hnames.1, NameMap.get?_insert, if_pos rfl]
      · exact ih hnames.2 hrest

/-- The loop over the names stops at the first one that equals an earlier one up to letter case,
and otherwise gives each its position. -/
theorem foldlM_add (entries : List (Fin n × Phase)) (m : Naming n) {seen : List String}
    (hseen : ∀ key, m.folded.get? key = seen.find? (Text.lowercase · == key)) :
    (entries.foldlM Naming.add m).map (·.index) =
      (Policy.checkDistinct seen (entries.map (·.2.name))).map fun _ =>
        fileAll m.index entries := by
  induction entries generalizing m seen with
  | nil => rfl
  | cons entry rest ih =>
      obtain ⟨i, phase⟩ := entry
      have hfound := hseen (Text.lowercase phase.name)
      rw [List.foldlM_cons, Naming.add, List.map_cons, Policy.checkDistinct, Policy.namesake?,
        ← hfound]
      cases hname : m.folded.get? (Text.lowercase phase.name) with
      | some existing => rfl
      | none =>
          refine ih _ fun key => ?_
          rw [NameMap.get?_insert, List.find?_append, ← hseen]
          by_cases hkey : key = Text.lowercase phase.name
          · rw [if_pos hkey, hkey, hname]
            simp
          · rw [if_neg hkey]
            simp [Ne.symm hkey]

end Index

/-! ## Edges between phases -/

/-- What is wrong with one prerequisite of a phase. -/
def referenceDefect? (names : List String) (phase dependency : String) : Option PolicyDefect :=
  if dependency = phase then some (.selfDependency phase)
  else if names.contains dependency then none
  else some (.unknownDependency phase dependency)

section Edges

variable {n : ℕ} {index : NameMap (Fin n)} {names : List String}

/-- The loop over the prerequisites of a phase stops at the first one that is no other phase, and
otherwise enters them all. -/
theorem EdgeTables.addPhase_eq (hindex : ∀ name, index.get? name = none ↔ name ∉ names)
    (t : EdgeTables n) (i : Fin n) (phase : Phase) :
    addPhase index t (i, phase) =
      (phase.dependsOn.findSome? (referenceDefect? names phase.name)).elim
        (.ok (t.linkAll i (phase.dependsOn.filterMap index.get?))) .error := by
  have hloop : addReference index i phase.name = fun t d =>
      (referenceDefect? names phase.name d).elim (Except.ok (t.linkAll i (index.get? d).toList))
        .error := by
    funext t d
    rw [addReference, referenceDefect?]
    by_cases hself : d = phase.name
    · rw [if_pos hself, if_pos hself]
      rfl
    · rw [if_neg hself, if_neg hself]
      cases hd : index.get? d with
      | none => simp [(hindex d).mp hd]
      | some j =>
          have hknown : d ∈ names := by
            by_contra hunknown
            rw [(hindex d).mpr hunknown] at hd
            cases hd
          simp [hknown, linkAll]
  rw [addPhase, hloop, foldlM_checked]
  congr 2
  rw [linkAll, List.foldl_filterMap]
  refine List.foldl_ext _ _ _ fun t d _ => ?_
  cases index.get? d with
  | none => rfl
  | some j => rfl

/-- The loop over the phases stops at the first prerequisite that is no other phase, and otherwise
fills the tables. -/
theorem EdgeTables.foldlM_addPhase (hindex : ∀ name, index.get? name = none ↔ name ∉ names)
    (entries : List (Fin n × Phase)) (t : EdgeTables n) :
    entries.foldlM (addPhase index) t =
      (entries.findSome? fun entry =>
        entry.2.dependsOn.findSome? (referenceDefect? names entry.2.name)).elim
        (.ok (t.fill (entries.map fun entry =>
          (entry.1, entry.2.dependsOn.filterMap index.get?)))) .error := by
  have hloop : addPhase index = fun (t : EdgeTables n) (entry : Fin n × Phase) =>
      (entry.2.dependsOn.findSome? (referenceDefect? names entry.2.name)).elim
        (Except.ok (t.linkAll entry.1 (entry.2.dependsOn.filterMap index.get?))) .error := by
    funext t entry
    exact addPhase_eq hindex t entry.1 entry.2
  rw [hloop, foldlM_checked, fill, List.foldl_map]

end Edges

/-! ## Graphs -/

namespace DependencyGraph

variable {phases : List Phase} {g : DependencyGraph}

/-- The edges of a graph in both directions. -/
def edgeTables (g : DependencyGraph) : EdgeTables g.names.length where
  edges := g.edges
  backEdges := g.backEdges

/-- The index and the tables of a graph are in step with its names and with each other. -/
structure InStep (g : DependencyGraph) : Prop where
  /-- The index leads from each name to its position, and from nothing else. -/
  indexed : ∀ name i, g.indexOf? name = some i ↔ g.names.get i = name
  tables : ∃ all, g.edgeTables.InStep all

/-- The index that the first loop fills. -/
def indexFor (phases : List Phase) : NameMap (Fin (phases.map fun p : Phase => p.name).length) :=
  fileAll {} (numbered phases)

/-- The tables that the second loop fills. -/
def tablesFor (phases : List Phase) : EdgeTables (phases.map fun p : Phase => p.name).length :=
  (EdgeTables.empty _).fill ((numbered phases).map fun entry =>
    (entry.1, entry.2.dependsOn.filterMap (indexFor phases).get?))

/-- The graph of a list of phases, whether or not it obeys the rules. -/
def ofPhases (phases : List Phase) : DependencyGraph where
  names := phases.map (·.name)
  index := indexFor phases
  edges := (tablesFor phases).edges
  backEdges := (tablesFor phases).backEdges

/-- The first prerequisite that is no other phase. -/
def firstBadReference? (phases : List Phase) : Option PolicyDefect :=
  phases.findSome? fun p =>
    p.dependsOn.findSome? (referenceDefect? (phases.map (·.name)) p.name)

/-- The first run-if condition that names no phase, or none that is declared earlier. -/
def firstBadRunIf? (phases : List Phase) : Option PolicyDefect :=
  (numbered phases).findSome? (runIfDefect? (indexFor phases))

/-- The first defect of the graph of a list of phases whose names are distinct. -/
def firstDefect? (phases : List Phase) : Option PolicyDefect :=
  (firstBadReference? phases).or <| (ofPhases phases).firstCycle?.or <| firstBadRunIf? phases

/-! ## Numbered phases -/

theorem map_fst_numbered (phases : List Phase) :
    (numbered phases).map Prod.fst = List.finRange _ := by
  refine List.map_fst_zip ?_
  rw [List.length_finRange, List.length_map]

theorem map_snd_numbered (phases : List Phase) : (numbered phases).map Prod.snd = phases := by
  refine List.map_snd_zip ?_
  rw [List.length_finRange, List.length_map]

theorem map_name_numbered (phases : List Phase) :
    (numbered phases).map (·.2.name) = phases.map (·.name) := by
  have hnames := congrArg (List.map Phase.name) (map_snd_numbered phases)
  rwa [List.map_map] at hnames

theorem mem_numbered_iff {i : Fin (phases.map fun p : Phase => p.name).length} {p : Phase} :
    (i, p) ∈ numbered phases ↔ phases[i.val]? = some p := by
  rw [numbered, List.mem_iff_getElem?]
  constructor
  · rintro ⟨k, hk⟩
    obtain ⟨hi, hp⟩ := List.getElem?_zip_eq_some.mp hk
    obtain ⟨hk, hi⟩ := List.getElem?_eq_some_iff.mp hi
    have hval : k = i.val := by simpa using congrArg Fin.val hi
    rw [← hval]
    exact hp
  · intro hp
    refine ⟨i.val, List.getElem?_zip_eq_some.mpr ⟨?_, hp⟩⟩
    have hi : i.val < (List.finRange (phases.map (·.name)).length).length := by
      rw [List.length_finRange]
      exact i.isLt
    exact List.getElem?_eq_some_iff.mpr ⟨hi, by simp⟩

/-! ## The graph that the loops fill -/

theorem get?_indexFor_eq_none_iff {name : String} :
    (indexFor phases).get? name = none ↔ name ∉ phases.map (·.name) := by
  have hnames := map_name_numbered phases
  constructor
  · intro hnone hname
    rw [← hnames] at hname
    obtain ⟨i, hi⟩ := exists_get?_fileAll (m := {}) hname
    have hsome : (indexFor phases).get? name = some i := hi
    rw [hnone] at hsome
    cases hsome
  · intro hname
    rw [← hnames] at hname
    exact get?_fileAll_of_notMem hname

theorem get?_indexFor_of_getElem? (hnames : (phases.map (·.name)).Nodup)
    {i : Fin (phases.map fun p : Phase => p.name).length} {p : Phase}
    (hp : phases[i.val]? = some p) : (indexFor phases).get? p.name = some i := by
  rw [← map_name_numbered] at hnames
  exact get?_fileAll_of_mem hnames (mem_numbered_iff.mpr hp)

/-- With distinct names, the index leads from each name to its position. -/
theorem get?_indexFor_eq_some_iff (hnames : (phases.map (·.name)).Nodup) {name : String}
    {i : Fin (phases.map fun p : Phase => p.name).length} :
    (indexFor phases).get? name = some i ↔ (phases.map fun p : Phase => p.name).get i = name := by
  have hposition (k : Fin (phases.map fun p : Phase => p.name).length) :
      (indexFor phases).get? ((phases.map fun p : Phase => p.name).get k) = some k := by
    have hk : k.val < phases.length := Nat.lt_of_lt_of_eq k.isLt (List.length_map _)
    have hname : (phases.map fun p : Phase => p.name).get k = phases[k.val].name :=
      List.getElem_map _
    rw [hname]
    exact get?_indexFor_of_getElem? hnames (List.getElem?_eq_getElem hk)
  constructor
  · intro hi
    have hname : name ∈ phases.map fun p : Phase => p.name := by
      by_contra hunknown
      rw [get?_indexFor_eq_none_iff.mpr hunknown] at hi
      cases hi
    obtain ⟨k, rfl⟩ := List.mem_iff_get.mp hname
    rw [hposition] at hi
    rw [Option.some.inj hi]
  · rintro rfl
    exact hposition i

theorem pairwise_map_fst_numbered {β : Type}
    (f : Fin (phases.map fun p : Phase => p.name).length × Phase →
      Fin (phases.map fun p : Phase => p.name).length × β)
    (hf : ∀ entry, (f entry).1 = entry.1) :
    (((numbered phases).map f).map Prod.fst).Pairwise (· < ·) := by
  have hfst : ((numbered phases).map f).map Prod.fst = List.finRange _ := by
    rw [List.map_map, ← map_fst_numbered]
    exact List.map_congr_left fun entry _ => hf entry
  rw [hfst]
  exact List.pairwise_lt_finRange _

/-- The loops keep the tables in step. -/
theorem inStep_tablesFor (phases : List Phase) : ∃ all, (tablesFor phases).InStep all :=
  (EdgeTables.InStep.empty _).fill (fun _ _ => Nat.zero_le _)
    (pairwise_map_fst_numbered _ fun _ => rfl)

/-- The edges of a phase lead to what it lists, each once, in the order written. -/
theorem edgesOf_tablesFor {i : Fin (phases.map fun p : Phase => p.name).length} {p : Phase}
    (hp : phases[i.val]? = some p) :
    (tablesFor phases).edgesOf i = (p.dependsOn.filterMap (indexFor phases).get?).eraseDups :=
  EdgeTables.edgesOf_fill (EdgeTables.InStep.empty _) (fun _ _ => Nat.zero_le _)
    (pairwise_map_fst_numbered _ fun _ => rfl)
    (List.mem_map.mpr ⟨(i, p), mem_numbered_iff.mpr hp, rfl⟩)

/-- With distinct names, index and tables are in step. -/
theorem inStep_ofPhases (hnames : (phases.map (·.name)).Nodup) : (ofPhases phases).InStep where
  indexed := fun _ _ => get?_indexFor_eq_some_iff hnames
  tables := inStep_tablesFor phases

/-! ## Building -/

theorem foldlM_add_numbered (phases : List Phase) :
    ((numbered phases).foldlM Naming.add {}).map (·.index) =
      (Policy.checkDistinct [] (phases.map (·.name))).map fun _ => indexFor phases := by
  have hempty : ∀ key, ({} : NameMap String).get? key =
      ([] : List String).find? (Text.lowercase · == key) := fun _ => rfl
  have hloop := foldlM_add (numbered phases) {} hempty
  rw [map_name_numbered] at hloop
  exact hloop

theorem foldlM_addPhase_numbered (phases : List Phase) :
    (numbered phases).foldlM (EdgeTables.addPhase (indexFor phases)) (.empty _) =
      (firstBadReference? phases).elim (.ok (tablesFor phases)) .error := by
  have hchecks : (numbered phases).findSome? (fun entry => entry.2.dependsOn.findSome?
      (referenceDefect? (phases.map (·.name)) entry.2.name)) = firstBadReference? phases := by
    have hsnd := List.findSome?_map (f := Prod.snd) (l := numbered phases)
      (p := fun p : Phase => p.dependsOn.findSome? (referenceDefect? (phases.map (·.name)) p.name))
    rw [map_snd_numbered] at hsnd
    exact hsnd.symm
  rw [EdgeTables.foldlM_addPhase fun name => get?_indexFor_eq_none_iff, hchecks]
  rfl

/-- The checks of the graph once it is filled. -/
theorem checkCycles_bind (phases : List Phase) :
    ((ofPhases phases).checkCycles.bind fun _ =>
      (checkRunIf (indexFor phases) (numbered phases)).bind fun _ => .ok (ofPhases phases)) =
      match (ofPhases phases).firstCycle?.or (firstBadRunIf? phases) with
      | some defect => .error defect
      | none => .ok (ofPhases phases) := by
  rw [checkCycles, checkRunIf, firstBadRunIf?]
  cases (ofPhases phases).firstCycle? with
  | some defect => rfl
  | none =>
      cases (numbered phases).findSome? (runIfDefect? (indexFor phases)) with
      | some defect => rfl
      | none => rfl

/-- Building a graph reports the first defect there is, the names first, and otherwise gives the
graph that the loops fill. -/
theorem build_eq (phases : List Phase) :
    build phases =
      match Policy.checkDistinct [] (phases.map (·.name)) with
      | .error defect => .error defect
      | .ok () =>
        match firstDefect? phases with
        | some defect => .error defect
        | none => .ok (ofPhases phases) := by
  have hnaming := foldlM_add_numbered phases
  have htables := foldlM_addPhase_numbered phases
  rw [build]
  cases hloop : (numbered phases).foldlM Naming.add {} with
  | error defect =>
      rw [hloop] at hnaming
      cases hnames : Policy.checkDistinct [] (phases.map (·.name)) with
      | error other =>
          rw [hnames] at hnaming
          cases hnaming
          rfl
      | ok _ =>
          rw [hnames] at hnaming
          cases hnaming
  | ok naming =>
      rw [hloop] at hnaming
      cases hnames : Policy.checkDistinct [] (phases.map (·.name)) with
      | error other =>
          rw [hnames] at hnaming
          cases hnaming
      | ok _ =>
          rw [hnames] at hnaming
          obtain ⟨folded, index⟩ := naming
          obtain rfl : index = indexFor phases := Except.ok.inj hnaming
          simp only [bind, Except.bind, htables, firstDefect?]
          cases firstBadReference? phases with
          | some defect => rfl
          | none => exact checkCycles_bind phases

end DependencyGraph

end MediaPhases
