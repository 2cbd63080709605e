import GetTogether.MainVC
import GetTogether.Realtime.Cells

/-! The table of the main screen. A snapshot replaces the arrays at once and leaves the
reload to the main queue; until then the table keeps the rows of its last reload. -/
namespace GetTogether

open Realtime

inductive Segment where
  | host
  | joined
  deriving DecidableEq, Repr

structure MainTable where
  vc : MainVC
  currentUser : Option String
  selectedSegmentIndex : Segment := .host
  /-- The calls of `reloadData` that wait on the main queue. -/
  reloads : Nat := 0
  cells : Cells Event := []
  /-- An index out of range has ended the app. -/
  stopped : Bool := false
  deriving DecidableEq, Repr

namespace MainTable

inductive Action where
  | signIn (uid : String)
  | didUserLogin
  | logout
  | refreshData
  | delivered (observer : Nat) (events : List Event)
  | reloadData
  | segmentedControlChanged (segment : Segment)
  | cellForRow (row : Nat)
  | selectRow (row : Nat)

def loaded (currentUser : Option String) : MainTable where
  vc := MainVC.viewDidLoad {} currentUser
  currentUser := currentUser

/-- The array of the selected segment. -/
def rows (s : MainTable) : List Event :=
  match s.selectedSegmentIndex with
  | .host => s.vc.hostEventData
  | .joined => s.vc.joinedEventData

def shown (s : MainTable) (row : Nat) : Option Event := Realtime.shown s.cells row

def reload (s : MainTable) : MainTable := { s with cells := reloadedCells s.rows }

/-- Whether `queryHostEventData` is reached and finds both arrays empty. -/
def queriesEmpty (s : MainTable) : Bool :=
  s.currentUser.isSome && s.vc.hostEventData.length == 0 && s.vc.joinedEventData.length == 0

/-- The reload that `queryHostEventData` makes at once. -/
def reloadIfEmpty (s : MainTable) : MainTable := if s.queriesEmpty then s.reload else s

def segmentChanged (s : MainTable) (segment : Segment) : MainTable :=
  { s with selectedSegmentIndex := segment }

def cellForRowAt (s : MainTable) (row : Nat) : Option MainTable :=
  (s.rows[row]?).map fun event => { s with cells := s.cells.set row (some event) }

def shouldPerformSegue (s : MainTable) : Bool := s.currentUser.isSome

def prepare (s : MainTable) (row : Nat) : Option Event := s.rows[row]?

def stepRunning (s : MainTable) : Action → Option MainTable
  | .signIn uid => some { s with currentUser := some uid }
  | .didUserLogin => some { s.reloadIfEmpty with vc := s.vc.didUserLogin s.currentUser }
  | .logout =>
    if s.currentUser.isSome then
      some { s with currentUser := none, vc := s.vc.didUserLogout }.reload
    else none
  | .refreshData => some { s.reloadIfEmpty with vc := s.vc.refreshData s.currentUser }
  | .delivered observer events => (s.vc.observers[observer]?).map fun uid =>
    { s with vc := s.vc.delivered events uid, reloads := s.reloads + 1 }
  | .reloadData =>
    if 0 < s.reloads then some { s with reloads := s.reloads - 1 }.reload else none
  | .segmentedControlChanged segment =>
    if s.currentUser.isSome then some (s.segmentChanged segment).reload
    else some (s.segmentChanged segment)
  | .cellForRow row =>
    if row < s.cells.length then some ((s.cellForRowAt row).getD { s with stopped := true })
    else none
  | .selectRow row =>
    if (s.shown row).isSome then
      if s.shouldPerformSegue && (s.prepare row).isNone then some { s with stopped := true }
      else some s
    else none

def step (s : MainTable) (a : Action) : Option MainTable :=
  if s.stopped then none else s.stepRunning a

theorem step_eq_some {s s' : MainTable} {a : Action} :
    s.step a = some s' ↔ s.stopped = false ∧ s.stepRunning a = some s' := by
  unfold step
  cases s.stopped <;> simp

end MainTable

end GetTogether
