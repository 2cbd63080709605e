import GetTogether.CommentVC
import GetTogether.Realtime.Cells

/-! The comments in the table of the comment screen. As on the main screen a snapshot
leaves the reload to the main queue. A row that is swiped offers to delete its comment
when that was written by the signed-in account. -/
namespace GetTogether

open Realtime

structure CommentTable where
  vc : CommentVC
  currentUser : Option String
  commentData : List Comment := []
  reloads : Nat := 0
  cells : Cells Comment := []
  /-- The row that has been swiped and shows the button to delete it. -/
  swiped : Option Nat := none
  writes : List Write := []
  /-- An index out of range, or a table that does not fit its array, has ended the app. -/
  stopped : Bool := false
  deriving DecidableEq, Repr

namespace CommentTable

inductive Action where
  | delivered (comments : List Comment)
  | reloadData
  | cellForRow (row : Nat)
  | swipe (row : Nat)
  | commitDelete

def loaded (vc : CommentVC) (currentUser : Option String) : CommentTable where
  vc := vc
  currentUser := currentUser

def shown (s : CommentTable) (row : Nat) : Option Comment := Realtime.shown s.cells row

/-- A reload also takes the button of a swiped row away. -/
def reload (s : CommentTable) : CommentTable :=
  { s with cells := reloadedCells s.commentData, swiped := none }

def cellForRowAt (s : CommentTable) (row : Nat) : Option CommentTable :=
  (s.commentData[row]?).map fun comment => { s with cells := s.cells.set row (some comment) }

/-- Only comments of the signed-in account are offered. -/
def canEditRowAt (s : CommentTable) (row : Nat) : Option Bool :=
  (s.commentData[row]?).map fun comment => s.currentUser.any (comment.userID = ·)

def commit (s : CommentTable) (row : Nat) : Option (List Write) :=
  (s.commentData[row]?).map fun comment =>
    [.removeValue ["comment", s.vc.event.eventID, comment.commentID]]

/-- The row is deleted from the array and from the table. `deleteRows` ends the app when
the table did not have as many rows as the array. -/
def removed (s : CommentTable) (row : Nat) : CommentTable :=
  { s with
    commentData := s.commentData.eraseIdx row
    cells := s.cells.eraseIdx row
    swiped := none
    stopped := s.cells.length ≠ s.commentData.length }

def swipe (s : CommentTable) (row : Nat) : CommentTable :=
  match s.canEditRowAt row with
  | some offered => { s with swiped := if offered then some row else none }
  | none => { s with stopped := true }

def commitDelete (s : CommentTable) (row : Nat) : CommentTable :=
  match s.commit row with
  | some writes => { s.removed row with writes := s.writes ++ writes }
  | none => { s with stopped := true }

def stepRunning (s : CommentTable) : Action → Option CommentTable
  | .delivered comments => some { s with commentData := comments, reloads := s.reloads + 1 }
  | .reloadData =>
    if 0 < s.reloads then some { s with reloads := s.reloads - 1 }.reload else none
  | .cellForRow row =>
    if row < s.cells.length then some ((s.cellForRowAt row).getD { s with stopped := true })
    else none
  | .swipe row => if (s.shown row).isSome then some (s.swipe row) else none
  | .commitDelete => s.swiped.map s.commitDelete

def step (s : CommentTable) (a : Action) : Option CommentTable :=
  if s.stopped then none else s.stepRunning a

theorem step_eq_some {s s' : CommentTable} {a : Action} :
    s.step a = some s' ↔ s.stopped = false ∧ s.stepRunning a = some s' := by
  unfold step
  cases s.stopped <;> simp

end CommentTable

end GetTogether
