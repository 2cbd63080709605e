import Mathlib.Data.List.Basic

/-! The cells of a table. A reload counts the elements of an array and forgets the
cells; each cell is made later, from the element its row has then. -/
namespace GetTogether.Realtime

universe u

variable {α : Type u}

/-- The rows of the last reload, each with what its cell shows once it is made. -/
abbrev Cells (α : Type u) := List (Option α)

def reloadedCells (data : List α) : Cells α := List.replicate data.length none

def shown (cells : Cells α) (row : Nat) : Option α := (cells[row]?).join

/-- As many rows as elements, and no cell shows anything but the element of its row. -/
structure Agrees (cells : Cells α) (seen : List α) : Prop where
  length : cells.length = seen.length
  shown : ∀ row x, shown cells row = some x → seen[row]? = some x

theorem agrees_reloaded (data : List α) : Agrees (reloadedCells data) data := by
  constructor
  · exact List.length_replicate
  · intro row x h
    unfold Realtime.shown reloadedCells at h
    rw [List.getElem?_replicate] at h
    split at h <;> cases h

variable {cells : Cells α} {seen : List α} {row : Nat}

theorem Agrees.make (h : Agrees cells seen) (row : Nat) (x : α) :
    Agrees (cells.set row (some x)) (seen.set row x) := by
  constructor
  · rw [List.length_set, List.length_set, h.length]
  · intro other y hy
    unfold Realtime.shown at hy
    rw [List.getElem?_set] at hy ⊢
    by_cases hsame : row = other
    · have hlength := h.length
      rw [if_pos hsame] at hy ⊢
      rw [← hlength]
      split at hy
      · next hlt =>
        rw [if_pos hlt]
        exact hy
      · cases hy
    · rw [if_neg hsame] at hy ⊢
      exact h.shown other y hy

theorem Agrees.delete (h : Agrees cells seen) (row : Nat) :
    Agrees (cells.eraseIdx row) (seen.eraseIdx row) := by
  constructor
  · rw [List.length_eraseIdx, List.length_eraseIdx, h.length]
  · intro other y hy
    unfold Realtime.shown at hy
    rw [List.getElem?_eraseIdx] at hy ⊢
    split at hy
    · next hlt =>
      rw [if_pos hlt]
      exact h.shown other y hy
    · next hge =>
      rw [if_neg hge]
      exact h.shown (other + 1) y hy

/-- Where a cell is made, an array has the element it shows exactly when it has the one
the row was made from. -/
theorem Agrees.shows_iff (h : Agrees cells seen) (hmade : (Realtime.shown cells row).isSome)
    (data : List α) :
    (∃ x, Realtime.shown cells row = some x ∧ data[row]? = some x) ↔
      data[row]? = seen[row]? := by
  obtain ⟨x, hx⟩ := Option.isSome_iff_exists.mp hmade
  have hseen := h.shown row x hx
  constructor
  · rintro ⟨y, hy, hdata⟩
    rw [hdata, hseen, ← hx, hy]
  · intro hsame
    exact ⟨x, hx, hsame.trans hseen⟩

end GetTogether.Realtime
