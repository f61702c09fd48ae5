import MediaPhases.Media.Codec
import Mathlib.Data.List.Basic

/-!
# Spellings of codecs

Two spellings denote one codec when they are alike after trimming and lower-casing, or when both
are then found in one group.  No spelling is found in two groups, which makes this an equivalence.
-/

namespace MediaPhases.Codec

variable {a b c : String} {group other : List String}

theorem groups_disjoint :
    ∀ group ∈ groups, ∀ other ∈ groups, ∀ a ∈ group, a ∈ other → other = group := by
  decide

theorem mem_iff_of_mem (hgroup : group ∈ groups) (ha : a ∈ group) (hb : b ∈ group)
    (hother : other ∈ groups) : a ∈ other ↔ b ∈ other := by
  constructor
  · intro h
    exact groups_disjoint group hgroup other hother a ha h ▸ hb
  · intro h
    exact groups_disjoint group hgroup other hother b hb h ▸ ha

/-- Two texts have one index exactly when some group holds both. -/
theorem exists_groupIndex?_iff :
    (∃ i, groupIndex? a = some i ∧ groupIndex? b = some i) ↔
      ∃ group ∈ groups, a ∈ group ∧ b ∈ group := by
  constructor
  · rintro ⟨i, hi, hi'⟩
    obtain ⟨hlt, ha, -⟩ := List.findIdx?_eq_some_iff_getElem.mp hi
    obtain ⟨_, hb, -⟩ := List.findIdx?_eq_some_iff_getElem.mp hi'
    exact ⟨groups[i], List.getElem_mem hlt, List.contains_iff_mem.mp ha,
      List.contains_iff_mem.mp hb⟩
  · -- The two are in the same groups, so the first one found is the same as well.
    rintro ⟨group, hgroup, ha, hb⟩
    have hcontains (j : ℕ) (hj : j < groups.length) :
        groups[j].contains a = groups[j].contains b := by
      rw [Bool.eq_iff_iff, List.contains_iff_mem, List.contains_iff_mem]
      exact mem_iff_of_mem hgroup ha hb (List.getElem_mem hj)
    have hsome : (groupIndex? a).isSome = true := by
      rw [groupIndex?, List.findIdx?_isSome]
      exact List.any_eq_true.mpr ⟨group, hgroup, List.contains_iff_mem.mpr ha⟩
    obtain ⟨i, hi⟩ := Option.isSome_iff_exists.mp hsome
    refine ⟨i, hi, ?_⟩
    obtain ⟨hlt, hfound, hfirst⟩ := List.findIdx?_eq_some_iff_getElem.mp hi
    refine List.findIdx?_eq_some_iff_getElem.mpr ⟨hlt, hcontains i hlt ▸ hfound, ?_⟩
    intro j hj
    exact hcontains j (Nat.lt_trans hj hlt) ▸ hfirst j hj

theorem isSame_iff :
    isSame a b = true ↔ fold a = fold b ∨ ∃ group ∈ groups, fold a ∈ group ∧ fold b ∈ group := by
  rw [← exists_groupIndex?_iff, isSame, Bool.or_eq_true, beq_iff_eq]
  refine or_congr_right ?_
  cases groupIndex? (fold a) with
  | none => simp
  | some i =>
      cases groupIndex? (fold b) with
      | none => simp
      | some j =>
          constructor
          · intro h
            obtain rfl := beq_iff_eq.mp h
            exact ⟨i, rfl, rfl⟩
          · rintro ⟨k, hi, hj⟩
            cases hi
            cases hj
            exact beq_self_eq_true i

/-- Denoting the same codec is an equivalence. -/
theorem isSame_equivalence : Equivalence fun a b => isSame a b = true where
  refl a := isSame_iff.mpr (.inl rfl)
  symm {a b} h := by
    rcases isSame_iff.mp h with h | ⟨group, hgroup, ha, hb⟩
    · exact isSame_iff.mpr (.inl h.symm)
    · exact isSame_iff.mpr (.inr ⟨group, hgroup, hb, ha⟩)
  trans {a b c} hab hbc := by
    rcases isSame_iff.mp hab with h | ⟨group, hgroup, ha, hb⟩
    · rw [isSame_iff, h, ← isSame_iff]
      exact hbc
    · rcases isSame_iff.mp hbc with h | ⟨other, hother, hb', hc⟩
      · exact isSame_iff.mpr (.inr ⟨group, hgroup, ha, h ▸ hb⟩)
      · have ha' : fold a ∈ other := (mem_iff_of_mem hgroup ha hb hother).mpr hb'
        exact isSame_iff.mpr (.inr ⟨other, hother, ha', hc⟩)

end MediaPhases.Codec
