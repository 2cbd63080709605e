import GetTogether.Realtime.Handler

/-! What a write can change: a leaf it writes, to something else than was there. A record
is a node with fields and nothing below them, and a write of a record or of a field
changes fields of that record only. -/
namespace GetTogether.Realtime

/-- The write leaves something else at the path than what was stored there. -/
def Write.Changes (db : Store) (write : Write) (path : Path) (value : Option Scalar) : Prop :=
  write.writtenAt path = some value ∧ value ≠ db.get path

theorem exists_changes {db : Store} {writes : List Write} {path : Path}
    (h : (db.applyAll writes).get path ≠ db.get path) :
    ∃ write ∈ writes, write.Changes db path ((db.applyAll writes).get path) := by
  have hget := get_applyAll db writes path
  cases hwritten : writtenAt path writes with
  | none =>
    rw [hwritten] at hget
    exact absurd hget h
  | some value =>
    rw [hwritten, Option.getD_some] at hget
    obtain ⟨write, hwrite, hleaf⟩ := exists_of_writtenAt hwritten
    exact ⟨write, hwrite, hget ▸ hleaf, h⟩

theorem Write.not_changes_of_apart {db : Store} {write : Write} {key : String} {rest : Path}
    {value : Option Scalar} (h : write.Apart key) : ¬write.Changes db (key :: rest) value := by
  intro hchange
  have hnone := (h rest).symm.trans hchange.1
  cases hnone

/-- Fields lie below the node, and nothing below them. -/
def Store.Flat (db : Store) (path : Path) : Prop :=
  ∀ rest value, db.get (path ++ rest) = some value → ∃ field, rest = [field]

variable {db : Store} {node path : Path} {found : Option Scalar}

theorem Store.Flat.nil_of_field (hflat : db.Flat node) {field : String} {rest : Path}
    {value : Scalar} (h : db.get (node ++ [field] ++ rest) = some value) : rest = [] := by
  rw [List.append_assoc] at h
  obtain ⟨other, hother⟩ := hflat _ _ h
  simpa using (List.cons.inj hother).2

variable (hflat : db.Flat node)

include hflat

theorem Write.Changes.object {fields : List (String × Scalar)}
    (h : (Write.setValue node (.object fields)).Changes db path found) :
    ∃ field, path = node ++ [field] ∧ found = (Tree.object fields).get [field] := by
  obtain ⟨hwritten, hne⟩ := h
  rw [Write.writtenAt_setValue, Option.ite_none_right_eq_some, Option.some.injEq] at hwritten
  obtain ⟨⟨rest, rfl⟩, rfl⟩ := hwritten
  rw [List.drop_left] at hne ⊢
  have hfield : ∃ field, rest = [field] := by
    cases hnew : (Tree.object fields).get rest with
    | some value =>
      obtain ⟨field, rfl, -⟩ := Tree.get_object_eq_some hnew
      exact ⟨field, rfl⟩
    | none =>
      obtain ⟨value, hold⟩ := Option.ne_none_iff_exists'.mp (hnew ▸ hne.symm)
      exact hflat rest value hold
  obtain ⟨field, rfl⟩ := hfield
  exact ⟨field, rfl, rfl⟩

theorem Write.Changes.removed (h : (Write.removeValue node).Changes db path found) :
    ∃ field, path = node ++ [field] ∧ found = none := by
  obtain ⟨hwritten, hne⟩ := h
  rw [Write.writtenAt_removeValue, Option.ite_none_right_eq_some, Option.some.injEq] at hwritten
  obtain ⟨⟨rest, rfl⟩, rfl⟩ := hwritten
  obtain ⟨value, hold⟩ := Option.ne_none_iff_exists'.mp hne.symm
  obtain ⟨field, rfl⟩ := hflat rest value hold
  exact ⟨field, rfl, rfl⟩

theorem Write.Changes.scalar {field : String} {value : Scalar}
    (h : (Write.setValue (node ++ [field]) (.scalar value)).Changes db path found) :
    path = node ++ [field] ∧ found = (Tree.scalar value).get [] := by
  obtain ⟨hwritten, hne⟩ := h
  rw [Write.writtenAt_setValue, Option.ite_none_right_eq_some, Option.some.injEq] at hwritten
  obtain ⟨⟨rest, rfl⟩, rfl⟩ := hwritten
  rw [List.drop_left] at hne ⊢
  have hnil : rest = [] := by
    cases hnew : (Tree.scalar value).get rest with
    | some new => exact (Tree.get_scalar_eq_some hnew).1
    | none =>
      obtain ⟨old, hold⟩ := Option.ne_none_iff_exists'.mp (hnew ▸ hne.symm)
      exact hflat.nil_of_field hold
  subst hnil
  exact ⟨List.append_nil _, rfl⟩

theorem Write.Changes.child {field : String} {value : Scalar}
    (h : (Write.updateChildValues node [(field, value)]).Changes db path found) :
    path = node ++ [field] ∧ found = (Tree.scalar value).get [] := by
  apply Write.Changes.scalar hflat
  exact ⟨(Write.writtenAt_updateChildValues path node field value).symm.trans h.1, h.2⟩

end GetTogether.Realtime
