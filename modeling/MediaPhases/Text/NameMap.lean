/-!
# Maps from names

Values filed under names.  A value that is filed under a name takes the place of the one before.
-/

namespace MediaPhases

/-- Values under names; of several entries of one name the first one, filed last, counts. -/
structure NameMap (α : Type) where
  entries : List (String × α) := []
deriving DecidableEq, Repr

namespace NameMap

variable {α : Type}

/-- The value under a name. -/
def get? (m : NameMap α) (name : String) : Option α :=
  m.entries.lookup name

/-- The map with one more value. -/
def insert (m : NameMap α) (name : String) (value : α) : NameMap α :=
  ⟨(name, value) :: m.entries⟩

@[simp] theorem get?_empty (name : String) : (⟨[]⟩ : NameMap α).get? name = none := rfl

theorem get?_insert (m : NameMap α) (name other : String) (value : α) :
    (m.insert name value).get? other = if other = name then some value else m.get? other := by
  rw [get?, insert, List.lookup_cons]
  by_cases h : other = name
  · simp [h]
  · have hother : (other == name) = false := beq_false_of_ne h
    rw [hother, if_neg h, get?]

end NameMap

end MediaPhases
