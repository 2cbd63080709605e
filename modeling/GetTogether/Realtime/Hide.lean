import GetTogether.Realtime.Handler

/-! A database without one of its tables. Reads and writes of the other tables do not
see the difference, so what holds of runs that never heard of the table holds of those
that use it. -/
namespace GetTogether.Realtime

namespace Store

theorem ext_leaves {store store' : Store} (h : store.leaves = store'.leaves) : store = store' := by
  cases store
  cases store'
  cases h
  rfl

def hide (store : Store) (key : String) : Store := store.removeValue [key]

variable {store : Store} {key head : String} (hne : head ≠ key)

theorem leaves_hide (store : Store) (key : String) :
    (store.hide key).leaves = store.leaves.filter fun leaf => ¬[key] <+: leaf.1 := by
  simp [hide, removeValue, setValue]

include hne

theorem get_hide (path : Path) : (store.hide key).get (head :: path) = store.get (head :: path) := by
  rw [hide, removeValue, get_setValue, if_neg]
  simp [Ne.symm hne]

theorem contains_hide (path : Path) :
    (store.hide key).contains (head :: path) = store.contains (head :: path) := by
  rw [Bool.eq_iff_iff, contains_iff, contains_iff]
  simp only [List.cons_append, get_hide hne]

theorem children_hide (path : Path) :
    (store.hide key).children (head :: path) = store.children (head :: path) := by
  unfold children
  rw [leaves_hide, List.filterMap_filter]
  congr 3
  funext leaf
  by_cases hbelow : head :: path <+: leaf.1
  · obtain ⟨rest, hrest⟩ := hbelow
    have hother : ¬[key] <+: leaf.1 := by
      rw [← hrest]
      simp [Ne.symm hne]
    simp [hother]
  · simp [hbelow]

theorem string?_hide (path : Path) :
    (store.hide key).string? (head :: path) = store.string? (head :: path) := by
  rw [string?, get_hide hne, string?]

theorem bool?_hide (path : Path) :
    (store.hide key).bool? (head :: path) = store.bool? (head :: path) := by
  rw [bool?, get_hide hne, bool?]

theorem array?_hide (path : Path) :
    (store.hide key).array? (head :: path) = store.array? (head :: path) := by
  rw [array?, get_hide hne, array?]

theorem setValue_hide (path : Path) (tree : Tree) :
    (store.setValue (head :: path) tree).hide key = (store.hide key).setValue (head :: path) tree := by
  apply ext_leaves
  rw [leaves_hide]
  simp only [setValue, leaves_hide, List.filter_append, List.filter_filter]
  congr 1
  · rw [List.filter_eq_self]
    intro leaf hleaf
    obtain ⟨source, -, rfl⟩ := List.mem_map.mp hleaf
    simp [Ne.symm hne]
  · apply List.filter_congr
    intro leaf _
    rw [Bool.and_comm]

theorem updateChildValues_hide (path : Path) (fields : List (String × Scalar)) :
    (store.updateChildValues (head :: path) fields).hide key =
      (store.hide key).updateChildValues (head :: path) fields := by
  unfold updateChildValues
  induction fields generalizing store with
  | nil => rfl
  | cons field rest ih =>
    rw [List.foldl_cons, List.foldl_cons, ih, List.cons_append, setValue_hide hne]

end Store

def Write.Off (key : String) (write : Write) : Prop :=
  ∃ head, write.topKey = some head ∧ head ≠ key

theorem Write.Off.apply_hide {key : String} {write : Write} (h : write.Off key) (store : Store) :
    (write.apply store).hide key = write.apply (store.hide key) := by
  obtain ⟨head, hhead, hne⟩ := h
  cases write with
  | setValue path value =>
    obtain ⟨path, rfl⟩ := List.head?_eq_some_iff.mp hhead
    exact Store.setValue_hide hne path value
  | updateChildValues path fields =>
    obtain ⟨path, rfl⟩ := List.head?_eq_some_iff.mp hhead
    exact Store.updateChildValues_hide hne path fields
  | removeValue path =>
    obtain ⟨path, rfl⟩ := List.head?_eq_some_iff.mp hhead
    exact Store.setValue_hide hne path []

/-- Writes to other tables are the same writes on the database without the table. -/
theorem Store.applyAll_hide {key : String} {writes : List Write}
    (h : ∀ write ∈ writes, write.Off key) (store : Store) :
    (store.applyAll writes).hide key = (store.hide key).applyAll writes := by
  induction writes generalizing store with
  | nil => rfl
  | cons write rest ih =>
    have hrest := ih (fun other hother => h other (List.mem_cons_of_mem write hother))
      (write.apply store)
    rw [(h write List.mem_cons_self).apply_hide] at hrest
    exact hrest

theorem Store.hide_setValue (store : Store) (key : String) (path : Path) (tree : Tree) :
    (store.setValue (key :: path) tree).hide key = store.hide key := by
  apply Store.ext_leaves
  rw [Store.leaves_hide, Store.leaves_hide, Store.setValue, List.filter_append, List.filter_filter]
  rw [List.filter_eq_nil_iff.mpr, List.nil_append]
  · apply List.filter_congr
    intro leaf _
    by_cases hbelow : key :: path <+: leaf.1
    · have htable : [key] <+: leaf.1 := List.IsPrefix.trans ⟨path, rfl⟩ hbelow
      simp [hbelow, htable]
    · simp [hbelow]
  · intro leaf hleaf
    obtain ⟨source, -, rfl⟩ := List.mem_map.mp hleaf
    simp

theorem Write.hide_apply {key : String} {write : Write} (h : write.topKey = some key)
    (store : Store) : (write.apply store).hide key = store.hide key := by
  cases write with
  | setValue path value =>
    obtain ⟨path, rfl⟩ := List.head?_eq_some_iff.mp h
    exact Store.hide_setValue store key path value
  | removeValue path =>
    obtain ⟨path, rfl⟩ := List.head?_eq_some_iff.mp h
    exact Store.hide_setValue store key path []
  | updateChildValues path fields =>
    obtain ⟨path, rfl⟩ := List.head?_eq_some_iff.mp h
    simp only [Write.apply, Store.updateChildValues]
    induction fields generalizing store with
    | nil => rfl
    | cons field rest ih =>
      rw [List.foldl_cons, ih _ rfl]
      exact Store.hide_setValue store key (path ++ [field.1]) _

end GetTogether.Realtime
