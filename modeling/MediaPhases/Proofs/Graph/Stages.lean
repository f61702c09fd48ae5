import MediaPhases.Proofs.Graph.Filling
import MediaPhases.Proofs.Graph.Search

/-!
# The stages of building a graph

Each stage of building a dependency graph passes exactly the lists of phases that obey its rule:
the names are distinct up to letter case, the prerequisites name other phases, they form no cycle,
and the run-if conditions name phases declared earlier.  The stages report different defects, so a
defect tells which stage has failed.
-/

namespace MediaPhases

/-- The phase named `a` lists `b` as a prerequisite. -/
def Requires (phases : List Phase) (a b : String) : Prop :=
  ∃ p ∈ phases, p.name = a ∧ b ∈ p.dependsOn

/-- The phase of a name, where names are distinct. -/
theorem eq_of_name_eq
    {phases : List Phase} (hnames : (phases.map (·.name)).Nodup)
    {p q : Phase} (hp : p ∈ phases) (hq : q ∈ phases) (h : p.name = q.name) : p = q :=
  List.inj_on_of_nodup_map hnames hp hq h

/-! ## Distinct names -/

namespace Policy

/-- A name is free when no earlier name equals it up to letter case. -/
theorem namesake?_eq_none_iff {seen : List String} {name : String} :
    namesake? seen name = none ↔ ∀ s ∈ seen, Text.lowercase s ≠ Text.lowercase name := by
  simp [namesake?]

theorem checkDistinct_eq_ok_iff {seen names : List String} :
    checkDistinct seen names = .ok () ↔
      (names.map Text.lowercase).Nodup ∧
        ∀ name ∈ names, ∀ s ∈ seen, Text.lowercase s ≠ Text.lowercase name := by
  induction names generalizing seen with
  | nil => simp [checkDistinct]
  | cons name rest ih =>
      rw [checkDistinct]
      cases h : namesake? seen name with
      | some existing =>
          have hsome : namesake? seen name ≠ none := by simp [h]
          rw [Ne, namesake?_eq_none_iff] at hsome
          constructor
          · intro hok
            cases hok
          · rintro ⟨-, hall⟩
            exact absurd (hall name List.mem_cons_self) hsome
      | none =>
          rw [namesake?_eq_none_iff] at h
          simp only [ih, List.map_cons, List.nodup_cons, List.mem_map, List.mem_append,
            List.mem_cons, List.not_mem_nil, or_false]
          constructor
          · rintro ⟨hnodup, hall⟩
            refine ⟨⟨?_, hnodup⟩, ?_⟩
            · rintro ⟨other, hother, heq⟩
              exact hall other hother name (.inr rfl) heq.symm
            · rintro other (rfl | hother) s hs
              · exact h s hs
              · exact hall other hother s (.inl hs)
          · rintro ⟨⟨hfirst, hnodup⟩, hall⟩
            refine ⟨hnodup, ?_⟩
            rintro other hother s (hs | rfl)
            · exact hall other (.inr hother) s hs
            · exact fun heq => hfirst ⟨other, hother, heq.symm⟩

/-- The only defect of the names alone is that one of them equals an earlier one up to letter
case. -/
theorem of_checkDistinct
    {seen names : List String} {defect : PolicyDefect}
    (h : checkDistinct seen names = .error defect) :
    ∃ before name after, names = before ++ name :: after ∧ ∃ existing ∈ seen ++ before,
      Text.lowercase existing = Text.lowercase name ∧ defect = .duplicatePhase name existing := by
  induction names generalizing seen with
  | nil => cases h
  | cons first rest ih =>
      rw [checkDistinct] at h
      cases hfound : namesake? seen first with
      | some existing =>
          rw [hfound] at h
          cases h
          have hseen : existing ∈ seen := List.mem_of_find?_eq_some hfound
          have hsame : Text.lowercase existing = Text.lowercase first := by
            simpa using List.find?_some hfound
          exact ⟨[], first, rest, rfl, existing, by simpa using hseen, hsame, rfl⟩
      | none =>
          rw [hfound] at h
          obtain ⟨before, name, after, rfl, existing, hmem, hdefect⟩ := ih h
          exact ⟨first :: before, name, after, rfl, existing, by simpa using hmem, hdefect⟩

end Policy

namespace DependencyGraph

/-! ## References -/

theorem referenceDefect?_eq_none_iff {names : List String} {phase dependency : String} :
    referenceDefect? names phase dependency = none ↔
      dependency ≠ phase ∧ dependency ∈ names := by
  rw [referenceDefect?]
  by_cases hself : dependency = phase
  · simp [hself]
  · by_cases hmem : dependency ∈ names
    · simp [hself, hmem]
    · simp [hself, hmem]

theorem firstBadReference?_eq_none_iff {phases : List Phase} :
    firstBadReference? phases = none ↔
      ∀ p ∈ phases, ∀ d ∈ p.dependsOn, d ≠ p.name ∧ d ∈ phases.map (·.name) := by
  simp only [firstBadReference?, List.findSome?_eq_none_iff, referenceDefect?_eq_none_iff]

/-- A defect of a reference concerns one phase and one of its prerequisites. -/
theorem of_firstBadReference?
    {phases : List Phase} {defect : PolicyDefect}
    (h : firstBadReference? phases = some defect) :
    ∃ p ∈ phases, ∃ d ∈ p.dependsOn,
      defect = .selfDependency p.name ∧ d = p.name ∨
        defect = .unknownDependency p.name d ∧ d ∉ phases.map (·.name) := by
  obtain ⟨p, hp, hfound⟩ := List.exists_of_findSome?_eq_some h
  obtain ⟨d, hd, hdefect⟩ := List.exists_of_findSome?_eq_some hfound
  refine ⟨p, hp, d, hd, ?_⟩
  rw [referenceDefect?] at hdefect
  split at hdefect
  · rename_i hself
    cases hdefect
    exact .inl ⟨rfl, hself⟩
  · split at hdefect
    · cases hdefect
    · rename_i hunknown
      cases hdefect
      exact .inr ⟨rfl, by simpa using hunknown⟩

/-! ## Run-if conditions -/

theorem mem_numbered_iff_append
    {phases : List Phase} {i : Fin (phases.map fun p : Phase => p.name).length} {p : Phase} :
    (i, p) ∈ numbered phases ↔
      ∃ before after, phases = before ++ p :: after ∧ before.length = i.val := by
  rw [mem_numbered_iff]
  constructor
  · intro hp
    obtain ⟨hi, hp⟩ := List.getElem?_eq_some_iff.mp hp
    refine ⟨phases.take i.val, phases.drop (i.val + 1), ?_, List.length_take_of_le hi.le⟩
    rw [← hp, ← List.drop_eq_getElem_cons hi, List.take_append_drop]
  · rintro ⟨before, after, hsplit, hlength⟩
    have hat : (before ++ p :: after)[before.length]? = some p := by simp
    rw [← hsplit, hlength] at hat
    exact hat

/-- With distinct names, the phases at earlier positions are those declared before. -/
theorem position_lt_iff
    {phases before after : List Phase} {p : Phase} (hnames : (phases.map (·.name)).Nodup)
    (hsplit : phases = before ++ p :: after) {name : String}
    {r : Fin (phases.map fun p : Phase => p.name).length}
    (hr : (indexFor phases).get? name = some r) :
    r.val < before.length ↔ name ∈ before.map (·.name) := by
  have hsame (k : ℕ) (hk : k < before.length) :
      (phases.map (·.name))[k]? = (before.map (·.name))[k]? := by
    rw [hsplit, List.map_append]
    exact List.getElem?_append_left (Nat.lt_of_lt_of_eq hk (List.length_map _).symm)
  constructor
  · intro hlt
    have hat : (phases.map (·.name))[r.val]? = some name :=
      List.getElem?_eq_some_iff.mpr ⟨r.isLt, (get?_indexFor_eq_some_iff hnames).mp hr⟩
    rw [hsame _ hlt] at hat
    exact List.mem_of_getElem? hat
  · intro hname
    obtain ⟨k, hk⟩ := List.mem_iff_getElem?.mp hname
    have hlt : k < before.length :=
      Nat.lt_of_lt_of_eq (List.getElem?_eq_some_iff.mp hk).1 (List.length_map _)
    rw [← hsame k hlt] at hk
    obtain ⟨hbound, hget⟩ := List.getElem?_eq_some_iff.mp hk
    have hposition := (get?_indexFor_eq_some_iff hnames (i := ⟨k, hbound⟩)).mpr hget
    rw [hr] at hposition
    rw [Option.some.inj hposition]
    exact hlt

/-- What is wrong with a run-if condition, where names are distinct: it names no phase, or none
that is declared before. -/
theorem runIfDefect?_eq_some_iff
    {phases before after : List Phase} {p : Phase} (hnames : (phases.map (·.name)).Nodup)
    (hsplit : phases = before ++ p :: after) {i : Fin (phases.map fun p : Phase => p.name).length}
    (hi : before.length = i.val) {defect : PolicyDefect} :
    runIfDefect? (indexFor phases) (i, p) = some defect ↔
      ∃ c, p.runIf = some c ∧
        (defect = .unknownRunIfReference p.name c.reference ∧
            c.reference ∉ phases.map (·.name) ∨
          defect = .forwardRunIfReference p.name c.reference ∧
            c.reference ∈ phases.map (·.name) ∧ c.reference ∉ before.map (·.name)) := by
  cases hc : p.runIf with
  | none => simp [runIfDefect?, hc]
  | some c =>
      simp only [runIfDefect?, hc, Option.some.injEq, exists_eq_left']
      cases hr : (indexFor phases).get? c.reference with
      | none =>
          have hunknown := get?_indexFor_eq_none_iff.mp hr
          simp only [hunknown]
          simp [eq_comm]
      | some r =>
          have hknown : c.reference ∈ phases.map (·.name) := by
            by_contra hunknown
            rw [get?_indexFor_eq_none_iff.mpr hunknown] at hr
            cases hr
          have hle : i ≤ r ↔ c.reference ∉ before.map (·.name) := by
            rw [← position_lt_iff hnames hsplit hr, hi, not_lt]
            rfl
          simp only [hle, hknown]
          by_cases hbefore : c.reference ∈ before.map (·.name)
          · simp only [hbefore]
            simp
          · simp only [hbefore]
            simp [eq_comm]

/-- A defect of a run-if condition concerns one phase and what its condition names. -/
theorem of_firstBadRunIf?
    {phases : List Phase} (hnames : (phases.map (·.name)).Nodup) {defect : PolicyDefect}
    (h : firstBadRunIf? phases = some defect) :
    ∃ before p after c, phases = before ++ p :: after ∧ p.runIf = some c ∧
      (defect = .unknownRunIfReference p.name c.reference ∧ c.reference ∉ phases.map (·.name) ∨
        defect = .forwardRunIfReference p.name c.reference ∧
          c.reference ∈ phases.map (·.name) ∧ c.reference ∉ before.map (·.name)) := by
  obtain ⟨⟨i, p⟩, hentry, hdefect⟩ := List.exists_of_findSome?_eq_some h
  obtain ⟨before, after, hsplit, hi⟩ := mem_numbered_iff_append.mp hentry
  obtain ⟨c, hc, hdefect⟩ := (runIfDefect?_eq_some_iff hnames hsplit hi).mp hdefect
  exact ⟨before, p, after, c, hsplit, hc, hdefect⟩

/-- The run-if conditions pass when each names a phase that is declared before. -/
theorem firstBadRunIf?_eq_none_iff
    {phases : List Phase} (hnames : (phases.map (·.name)).Nodup) :
    firstBadRunIf? phases = none ↔
      ∀ before p after c, phases = before ++ p :: after → p.runIf = some c →
        c.reference ∈ before.map (·.name) := by
  constructor
  · intro hnone before p after c hsplit hc
    by_contra hbefore
    have hlength : before.length < (phases.map fun p : Phase => p.name).length := by simp [hsplit]
    have hentry : (⟨before.length, hlength⟩, p) ∈ numbered phases :=
      mem_numbered_iff_append.mpr ⟨before, after, hsplit, rfl⟩
    have hgood := List.findSome?_eq_none_iff.mp hnone _ hentry
    by_cases hknown : c.reference ∈ phases.map (·.name)
    · rw [(runIfDefect?_eq_some_iff hnames hsplit rfl).mpr
        ⟨c, hc, Or.inr ⟨rfl, hknown, hbefore⟩⟩] at hgood
      cases hgood
    · rw [(runIfDefect?_eq_some_iff hnames hsplit rfl).mpr
        ⟨c, hc, Or.inl ⟨rfl, hknown⟩⟩] at hgood
      cases hgood
  · intro hbackward
    cases hfound : firstBadRunIf? phases with
    | none => rfl
    | some defect =>
        obtain ⟨before, p, after, c, hsplit, hc, ⟨-, hunknown⟩ | ⟨-, -, hbefore⟩⟩ :=
          of_firstBadRunIf? hnames hfound
        · have hknown := hbackward before p after c hsplit hc
          rw [hsplit, List.map_append] at hunknown
          exact absurd (List.mem_append_left _ hknown) hunknown
        · exact absurd (hbackward before p after c hsplit hc) hbefore

/-! ## Cycles -/

/-- The positions of the prerequisites of a phase are those of the names that it lists. -/
theorem mem_edgesOf_tablesFor_iff
    {phases : List Phase} (hnames : (phases.map (·.name)).Nodup)
    {i j : Fin (phases.map fun p : Phase => p.name).length} {p : Phase}
    (hp : phases[i.val]? = some p) :
    j ∈ (tablesFor phases).edgesOf i ↔ (phases.map fun p : Phase => p.name)[j] ∈ p.dependsOn := by
  rw [edgesOf_tablesFor hp, List.mem_eraseDups, List.mem_filterMap]
  constructor
  · rintro ⟨name, hname, hj⟩
    obtain rfl := (get?_indexFor_eq_some_iff hnames).mp hj
    exact hname
  · intro hj
    exact ⟨_, hj, (get?_indexFor_eq_some_iff hnames).mpr rfl⟩

/-- The edges of the graph are the prerequisites of the phases. -/
theorem edge_ofPhases_iff
    {phases : List Phase} (hnames : (phases.map (·.name)).Nodup)
    {i j : Fin (ofPhases phases).names.length} :
    Edge (ofPhases phases).edgesOf i j ↔
      Requires phases (ofPhases phases).names[i] (ofPhases phases).names[j] := by
  have hi : i.val < phases.length := Nat.lt_of_lt_of_eq i.isLt (List.length_map _)
  have hp : phases[i.val]? = some phases[i.val] := List.getElem?_eq_getElem hi
  have hname : phases[i.val].name = (ofPhases phases).names[i] := (List.getElem_map _).symm
  refine Iff.trans (mem_edgesOf_tablesFor_iff hnames hp) ?_
  constructor
  · intro hj
    exact ⟨phases[i.val], List.getElem_mem hi, hname, hj⟩
  · rintro ⟨p, hp, heq, hj⟩
    obtain rfl := eq_of_name_eq hnames hp (List.getElem_mem hi) (heq.trans hname.symm)
    exact hj

theorem names_injective
    {phases : List Phase} (hnames : (phases.map (·.name)).Nodup) :
    Function.Injective fun i : Fin (ofPhases phases).names.length =>
      (ofPhases phases).names[i] := by
  intro i j h
  exact Fin.ext (hnames.getElem_inj_iff.mp h)

/-- What a phase requires, directly or not, is at a position to which edges lead. -/
theorem exists_transGen_edge
    {phases : List Phase} (hnames : (phases.map (·.name)).Nodup)
    (hreferences : ∀ p ∈ phases, ∀ d ∈ p.dependsOn, d ∈ phases.map (·.name))
    {i : Fin (ofPhases phases).names.length} {b : String}
    (h : Relation.TransGen (Requires phases) (ofPhases phases).names[i] b) :
    ∃ j : Fin (ofPhases phases).names.length, (ofPhases phases).names[j] = b ∧
      Relation.TransGen (Edge (ofPhases phases).edgesOf) i j := by
  have hposition : ∀ {a b : String}, Requires phases a b →
      ∃ j : Fin (ofPhases phases).names.length, (ofPhases phases).names[j] = b := by
    rintro a b ⟨p, hp, -, hb⟩
    obtain ⟨j, hj, hname⟩ := List.getElem_of_mem (hreferences p hp b hb)
    exact ⟨⟨j, hj⟩, hname⟩
  induction h with
  | single hstep =>
      obtain ⟨j, rfl⟩ := hposition hstep
      exact ⟨j, rfl, .single ((edge_ofPhases_iff hnames).mpr hstep)⟩
  | tail _ hstep ih =>
      obtain ⟨k, rfl, hik⟩ := ih
      obtain ⟨j, rfl⟩ := hposition hstep
      exact ⟨j, rfl, hik.tail ((edge_ofPhases_iff hnames).mpr hstep)⟩

theorem firstCycle?_eq_none_iff
    {phases : List Phase} (hnames : (phases.map (·.name)).Nodup)
    (hreferences : ∀ p ∈ phases, ∀ d ∈ p.dependsOn, d ∈ phases.map (·.name)) :
    (ofPhases phases).firstCycle? = none ↔ Acyclic (Requires phases) := by
  rw [firstCycle?, Option.map_eq_none_iff, findCycle?_eq_none_iff]
  constructor
  · intro hacyclic a ha
    obtain ⟨b, ⟨p, hp, hname, -⟩, -⟩ := Relation.TransGen.head'_iff.mp ha
    obtain ⟨i, hi, hget⟩ := List.getElem_of_mem (List.mem_map_of_mem (f := (·.name)) hp)
    have hai : (ofPhases phases).names[(⟨i, hi⟩ : Fin (ofPhases phases).names.length)] = a :=
      hget.trans hname
    rw [← hai] at ha
    obtain ⟨j, hj, hij⟩ := exists_transGen_edge hnames hreferences ha
    rw [names_injective hnames hj] at hij
    exact hacyclic _ hij
  · intro hacyclic
    exact hacyclic.of_map fun i j hij => (edge_ofPhases_iff hnames).mp hij

/-- A defect of the cycle stage is a simple cycle of prerequisites. -/
theorem of_firstCycle?
    {phases : List Phase} {defect : PolicyDefect} (hnames : (phases.map (·.name)).Nodup)
    (h : (ofPhases phases).firstCycle? = some defect) :
    ∃ path, defect = .cycle path ∧ IsSimpleCycle (Requires phases) path := by
  rw [firstCycle?, Option.map_eq_some_iff] at h
  obtain ⟨found, hfound, rfl⟩ := h
  refine ⟨_, rfl, (isSimpleCycle_of_findCycle? hfound).map (names_injective hnames) ?_⟩
  intro i j hij
  exact (edge_ofPhases_iff hnames).mp hij

end DependencyGraph

end MediaPhases
