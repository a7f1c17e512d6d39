import TypeBridge.Native.Library

/-!
# Owners of handles

How the numbers of owners change: `Handles.gain` adds owners to a handle, and giving the same number
up again leads back to the handles before (`release_gain`). `Handles.Accounted` says that the
numbers are those of a list in which each owner stands with its handle.
-/

namespace TypeBridge.Handles

variable {handles : Handles} {handle other more fewer : Nat} {owners : List Nat}

/-- A handle that was opened at some time. -/
def Known (handles : Handles) (handle : Nat) : Prop := handle < handles.owners.length

instance : Decidable (handles.Known handle) := inferInstanceAs (Decidable (_ < _))

/-- A handle with further owners. -/
def gain (handles : Handles) (handle more : Nat) : Handles :=
  ⟨handles.owners.set handle (handles.count handle + more)⟩

@[simp] theorem known_gain : (handles.gain handle more).Known other ↔ handles.Known other := by
  simp [Known, gain]

/-- A handle that was never given out has no owner. -/
theorem count_of_unknown (unknown : ¬handles.Known handle) : handles.count handle = 0 := by
  rw [count, List.getD_eq_getElem?_getD, List.getElem?_eq_none (Nat.not_lt.mp unknown)]
  rfl

/-- Setting the owners of a handle to some number. -/
theorem count_set (handles : Handles) (handle number other : Nat) :
    (⟨handles.owners.set handle number⟩ : Handles).count other =
      if other = handle ∧ handles.Known handle then number else handles.count other := by
  simp only [count, List.getD_eq_getElem?_getD, List.getElem?_set, Known]
  by_cases same : handle = other
  · subst same
    by_cases known : handle < handles.owners.length
    · simp [known]
    · simp [known]
  · simp [same, Ne.symm same]

/-- More owners count for their own handle alone, and only if it was given out. -/
theorem count_gain (handles : Handles) (handle more other : Nat) :
    (handles.gain handle more).count other =
      handles.count other + if other = handle ∧ handles.Known handle then more else 0 := by
  rw [gain, count_set]
  split
  · rename_i both
    rw [both.1]
  · rw [Nat.add_zero]

/-- Fewer owners count for their own handle alone. -/
theorem count_release (handles : Handles) (handle fewer other : Nat) :
    (handles.release handle fewer).count other =
      handles.count other - if other = handle then fewer else 0 := by
  rw [release, count_set]
  by_cases same : other = handle
  · subst same
    by_cases known : handles.Known other
    · rw [if_pos ⟨rfl, known⟩, if_pos rfl]
    · rw [if_neg fun both => known both.2, count_of_unknown known, Nat.zero_sub]
  · rw [if_neg fun both => same both.1, if_neg same, Nat.sub_zero]

/-- Handles are the same if the same ones were opened and have as many owners each. -/
theorem ext_count {one another : Handles} (length : one.owners.length = another.owners.length)
    (counts : ∀ handle, one.count handle = another.count handle) : one = another := by
  obtain ⟨owners⟩ := one
  obtain ⟨owners'⟩ := another
  congr
  refine List.ext_getElem length fun handle inside inside' => ?_
  simpa [count, inside, inside'] using counts handle

/-- To acquire a handle is to gain one owner of it. -/
theorem acquire_eq (handles : Handles) (handle : Nat) :
    handles.acquire handle = handles.gain handle 1 := rfl

@[simp] theorem gain_zero (handles : Handles) (handle : Nat) : handles.gain handle 0 = handles :=
  ext_count (by simp [gain]) fun other => by simp [count_gain]

/-- Owners are acquired one after the other. -/
theorem acquire_gain (handles : Handles) (handle more : Nat) :
    (handles.gain handle more).acquire handle = handles.gain handle (more + 1) := by
  refine ext_count (by simp [gain, acquire]) fun other => ?_
  rw [acquire_eq]
  simp only [count_gain, known_gain]
  split
  · omega
  · rfl

/-- Owners that are given up again leave those that were added besides. -/
theorem release_gain (handles : Handles) (handle more fewer : Nat) :
    (handles.gain handle (more + fewer)).release handle fewer = handles.gain handle more := by
  refine ext_count (by simp [gain, release]) fun other => ?_
  rw [count_release, count_gain, count_gain]
  by_cases same : other = handle
  · subst same
    by_cases known : handles.Known other
    · simp only [known, and_self, if_true]
      omega
    · simp [known, count_of_unknown known]
  · simp [same]

/-! ## Owners in a list -/

/-- Every handle has as many owners as stand in a list. -/
def Accounted (handles : Handles) (owners : List Nat) : Prop :=
  ∀ handle, handles.count handle = owners.count handle

/-- A handle that is owned was given out. -/
theorem Accounted.known (accounted : handles.Accounted owners) (member : handle ∈ owners) :
    handles.Known handle := by
  by_cases known : handles.Known handle
  · exact known
  · have some := List.count_pos_iff.mpr member
    rw [← accounted, count_of_unknown known] at some
    exact absurd some (Nat.lt_irrefl 0)

/-- It does not matter in which order the owners are listed. -/
theorem Accounted.perm {owners' : List Nat} (accounted : handles.Accounted owners)
    (same : owners.Perm owners') : handles.Accounted owners' :=
  fun handle => (accounted handle).trans (same.count_eq handle)

/-- A library that was opened has one owner more. -/
theorem count_opened (handles : Handles) (handle : Nat) :
    handles.opened.2.count handle =
      handles.count handle + if handle = handles.opened.1 then 1 else 0 := by
  simp only [opened, count, List.getD_eq_getElem?_getD, List.getElem?_append]
  rcases Nat.lt_trichotomy handle handles.owners.length with inside | rfl | outside
  · simp [inside, Nat.ne_of_lt inside]
  · simp
  · have beyond : ¬handle - handles.owners.length < 1 := by omega
    simp [Nat.not_lt_of_lt outside, Nat.ne_of_gt outside, beyond]

/-- A library that is opened has one owner, and had none before. -/
theorem Accounted.opened (accounted : handles.Accounted owners) :
    handles.opened.2.Accounted (handles.opened.1 :: owners) := by
  intro handle
  rw [count_opened, accounted, List.count_cons]
  by_cases same : handle = handles.opened.1
  · simp [same]
  · simp [same, Ne.symm same]

/-- A handle with an owner can gain more. -/
theorem Accounted.gain (accounted : handles.Accounted owners) (member : handle ∈ owners)
    (more : Nat) : (handles.gain handle more).Accounted (List.replicate more handle ++ owners) := by
  intro other
  rw [count_gain, accounted, List.count_append, List.count_replicate, Nat.add_comm]
  by_cases same : other = handle
  · simp [same, accounted.known member]
  · simp [same, Ne.symm same]

/-- An owner that releases its handle is an owner no longer. -/
theorem Accounted.release (accounted : handles.Accounted (handle :: owners)) :
    (handles.release handle 1).Accounted owners := by
  intro other
  rw [count_release, accounted, List.count_cons]
  by_cases same : other = handle
  · simp [same]
  · simp [same, Ne.symm same]

end TypeBridge.Handles
