import GetTogether.MainTable
import GetTogether.CommentTable
import GetTogether.Realtime.Run

/-! Rows of the main screen and of the comment screen, and what is done to them. An index
is taken from the rows of the last reload and used on the array of the last snapshot. -/
namespace GetTogether

open Realtime

namespace MainTable

/-- The index of every cell that is asked for is in bounds, and a tap hands over the event
that the row shows. -/
def ActsOnShown (s : MainTable) : Action → Prop
  | .cellForRow row => (s.cellForRowAt row).isSome
  | .selectRow row => s.shouldPerformSegue →
    ∃ event, s.shown row = some event ∧ s.prepare row = some event
  | _ => True

theorem cellForRowAt_isSome (s : MainTable) {row : Nat} :
    (s.cellForRowAt row).isSome ↔ row < s.rows.length := by
  unfold cellForRowAt
  rw [Option.isSome_map, isSome_getElem?]

/-- The events the rows were made from: those of the array at the last reload, and for a
cell that was made since, that of its row at the time. -/
def seenAfter (seen : List Event) (s : MainTable) : Action → List Event
  | .didUserLogin => if s.queriesEmpty then s.rows else seen
  | .refreshData => if s.queriesEmpty then s.rows else seen
  | .logout => []
  | .reloadData => s.rows
  | .segmentedControlChanged segment =>
    if s.currentUser.isSome then (s.segmentChanged segment).rows else seen
  | .cellForRow row => ((s.rows[row]?).map (seen.set row)).getD seen
  | _ => seen

/-- No cell is asked for beyond the end of the array, and no row is tapped that the array
has another event for since the row was made. -/
def Unmoved (s : List Event × MainTable) : Action → Prop
  | .cellForRow row => row < s.2.rows.length
  | .selectRow row => s.2.shouldPerformSegue → s.2.rows[row]? = s.1[row]?
  | _ => True

/-- The log is right about the rows of the table. -/
def Seen (s : List Event × MainTable) : Prop := Agrees s.2.cells s.1

theorem seen_loaded (currentUser : Option String) : Seen ([], loaded currentUser) :=
  agrees_reloaded []

variable {s s' : List Event × MainTable} {a : Action}

theorem Seen.reloadIfEmpty (h : Seen s) :
    Agrees s.2.reloadIfEmpty.cells (if s.2.queriesEmpty then s.2.rows else s.1) := by
  unfold MainTable.reloadIfEmpty
  split
  · exact agrees_reloaded s.2.rows
  · exact h

theorem Seen.cellForRow (h : Seen s) (row : Nat) :
    Agrees ((s.2.cellForRowAt row).getD { s.2 with stopped := true }).cells
      (((s.2.rows[row]?).map (s.1.set row)).getD s.1) := by
  unfold cellForRowAt
  cases s.2.rows[row]? with
  | none => exact h
  | some event => exact h.make row event

theorem Seen.step (h : Seen s) (hstep : logged step seenAfter s a = some s') : Seen s' := by
  obtain ⟨next, hnext, rfl⟩ := logged_cases hstep
  have hrun := (step_eq_some.mp hnext).2
  cases a with
  | signIn uid =>
    obtain rfl := Option.some.inj hrun
    exact h
  | didUserLogin =>
    obtain rfl := Option.some.inj hrun
    exact h.reloadIfEmpty
  | refreshData =>
    obtain rfl := Option.some.inj hrun
    exact h.reloadIfEmpty
  | logout =>
    simp only [stepRunning, Option.ite_none_right_eq_some, Option.some.injEq] at hrun
    obtain ⟨-, rfl⟩ := hrun
    have hempty : { s.2 with currentUser := none, vc := s.2.vc.didUserLogout }.rows = [] := by
      unfold rows
      cases s.2.selectedSegmentIndex <;> rfl
    unfold Seen reload
    rw [hempty]
    exact agrees_reloaded []
  | delivered observer events =>
    obtain ⟨uid, -, rfl⟩ := Option.map_eq_some_iff.mp hrun
    exact h
  | reloadData =>
    simp only [stepRunning, Option.ite_none_right_eq_some, Option.some.injEq] at hrun
    obtain ⟨-, rfl⟩ := hrun
    exact agrees_reloaded s.2.rows
  | segmentedControlChanged segment =>
    simp only [stepRunning] at hrun
    simp only [seenAfter]
    split at hrun
    · next hsigned =>
      obtain rfl := Option.some.inj hrun
      rw [if_pos hsigned]
      exact agrees_reloaded (s.2.segmentChanged segment).rows
    · next hsigned =>
      obtain rfl := Option.some.inj hrun
      rw [if_neg hsigned]
      exact h
  | cellForRow row =>
    simp only [stepRunning, Option.ite_none_right_eq_some, Option.some.injEq] at hrun
    obtain ⟨-, rfl⟩ := hrun
    exact h.cellForRow row
  | selectRow row =>
    simp only [stepRunning, Option.ite_none_right_eq_some] at hrun
    have hselect := hrun.2
    split at hselect
    · obtain rfl := Option.some.inj hselect
      exact h
    · obtain rfl := Option.some.inj hselect
      exact h

theorem Seen.actsOnShown_iff (h : Seen s) (hstep : logged MainTable.step seenAfter s a = some s') :
    s.2.ActsOnShown a ↔ Unmoved s a := by
  have hrun := (step_eq_some.mp (logged_eq_some.mp hstep).1).2
  cases a with
  | cellForRow row =>
    exact s.2.cellForRowAt_isSome
  | selectRow row =>
    simp only [stepRunning, Option.ite_none_right_eq_some] at hrun
    exact imp_congr Iff.rfl (Agrees.shows_iff h hrun.1 s.2.rows)
  | _ => exact Iff.rfl

end MainTable

namespace CommentTable

/-- The index of every cell that is asked for and of every row that is swiped is in bounds,
and the comment that is removed is the one that the swiped row shows and of the signed-in
account. -/
def ActsOnShown (s : CommentTable) : Action → Prop
  | .cellForRow row => (s.cellForRowAt row).isSome
  | .swipe row => (s.canEditRowAt row).isSome
  | .commitDelete => ∀ row ∈ s.swiped, ∃ comment, s.shown row = some comment ∧
    s.commentData[row]? = some comment ∧
    s.commit row = some [.removeValue ["comment", s.vc.event.eventID, comment.commentID]] ∧
    s.currentUser = some comment.userID
  | _ => True

def seenAfter (seen : List Comment) (s : CommentTable) : Action → List Comment
  | .reloadData => s.commentData
  | .cellForRow row => ((s.commentData[row]?).map (seen.set row)).getD seen
  | .commitDelete =>
    match s.swiped with
    | some row => if row < s.commentData.length then seen.eraseIdx row else seen
    | none => seen
  | _ => seen

/-- No cell is asked for and no row is swiped beyond the end of the array. When a comment
is deleted the array has the comment the swiped row was made from, and the row would still
be offered. -/
def Unmoved (s : List Comment × CommentTable) : Action → Prop
  | .cellForRow row => row < s.2.commentData.length
  | .swipe row => row < s.2.commentData.length
  | .commitDelete => ∀ row ∈ s.2.swiped, s.2.commentData[row]? = s.1[row]? ∧
    s.2.canEditRowAt row = some true
  | _ => True

theorem cellForRowAt_isSome (s : CommentTable) {row : Nat} :
    (s.cellForRowAt row).isSome ↔ row < s.commentData.length := by
  unfold cellForRowAt
  rw [Option.isSome_map, isSome_getElem?]

theorem canEditRowAt_isSome (s : CommentTable) {row : Nat} :
    (s.canEditRowAt row).isSome ↔ row < s.commentData.length := by
  unfold canEditRowAt
  rw [Option.isSome_map, isSome_getElem?]

theorem canEditRowAt_eq_true (s : CommentTable) {row : Nat} {comment : Comment}
    (h : s.commentData[row]? = some comment) :
    s.canEditRowAt row = some true ↔ s.currentUser = some comment.userID := by
  unfold canEditRowAt
  rw [h, Option.map_some, Option.some.injEq, Option.any_eq_true]
  simp [eq_comm]

theorem commit_eq_some (s : CommentTable) {row : Nat} {comment : Comment}
    (h : s.commentData[row]? = some comment) :
    s.commit row = some [.removeValue ["comment", s.vc.event.eventID, comment.commentID]] := by
  unfold commit
  rw [h, Option.map_some]

/-- The log is right about the rows of the table, and the row that is swiped has a cell. -/
structure Seen (s : List Comment × CommentTable) : Prop where
  agrees : Agrees s.2.cells s.1
  made : ∀ row ∈ s.2.swiped, (s.2.shown row).isSome

theorem seen_loaded (vc : CommentVC) (currentUser : Option String) :
    Seen ([], loaded vc currentUser) where
  agrees := agrees_reloaded []
  made row hrow := by cases hrow

variable {s s' : List Comment × CommentTable} {a : Action}

theorem Seen.reload (s : CommentTable) : Seen (s.commentData, s.reload) where
  agrees := agrees_reloaded s.commentData
  made row hrow := by cases hrow

theorem shown_made {cells : Cells Comment} {row other : Nat} {comment : Comment}
    (h : (Realtime.shown cells other).isSome) :
    (Realtime.shown (cells.set row (some comment)) other).isSome := by
  unfold Realtime.shown at h ⊢
  rw [List.getElem?_set]
  split
  · next hsame =>
    split
    · rfl
    · next hge =>
      rw [← hsame, List.getElem?_eq_none (by omega)] at h
      exact h
  · exact h

theorem Seen.cellForRow (h : Seen s) (row : Nat) :
    Seen (((s.2.commentData[row]?).map (s.1.set row)).getD s.1,
      (s.2.cellForRowAt row).getD { s.2 with stopped := true }) := by
  unfold cellForRowAt
  cases s.2.commentData[row]? with
  | none => exact ⟨h.agrees, h.made⟩
  | some comment => exact ⟨h.agrees.make row comment, fun other hother =>
      shown_made (h.made other hother)⟩

theorem Seen.swipe (h : Seen s) {row : Nat} (hmade : (s.2.shown row).isSome) :
    Seen (s.1, s.2.swipe row) := by
  unfold CommentTable.swipe
  split
  · refine ⟨h.agrees, fun other hother => ?_⟩
    have hsome := (Option.ite_none_right_eq_some.mp hother).2
    rw [← Option.some.inj hsome]
    exact hmade
  · exact ⟨h.agrees, h.made⟩

theorem Seen.commitDelete (h : Seen s) {row : Nat} (hrow : s.2.swiped = some row) :
    Seen (seenAfter s.1 s.2 .commitDelete, s.2.commitDelete row) := by
  unfold CommentTable.commitDelete
  simp only [seenAfter, hrow]
  cases hdata : s.2.commentData[row]? with
  | none =>
    have hge := List.getElem?_eq_none_iff.mp hdata
    rw [if_neg (by omega)]
    simp only [commit, hdata, Option.map_none]
    exact ⟨h.agrees, fun other hother => h.made other (hrow.trans hother)⟩
  | some comment =>
    have hlt := (List.getElem?_eq_some_iff.mp hdata).1
    rw [if_pos hlt]
    simp only [s.2.commit_eq_some hdata]
    exact ⟨h.agrees.delete row, fun other hother => by cases hother⟩

theorem Seen.step (h : Seen s) (hstep : logged step seenAfter s a = some s') : Seen s' := by
  obtain ⟨next, hnext, rfl⟩ := logged_cases hstep
  have hrun := (step_eq_some.mp hnext).2
  cases a with
  | delivered comments =>
    obtain rfl := Option.some.inj hrun
    exact ⟨h.agrees, h.made⟩
  | reloadData =>
    simp only [stepRunning, Option.ite_none_right_eq_some, Option.some.injEq] at hrun
    obtain ⟨-, rfl⟩ := hrun
    exact Seen.reload { s.2 with reloads := s.2.reloads - 1 }
  | cellForRow row =>
    simp only [stepRunning, Option.ite_none_right_eq_some, Option.some.injEq] at hrun
    obtain ⟨-, rfl⟩ := hrun
    exact h.cellForRow row
  | swipe row =>
    simp only [stepRunning, Option.ite_none_right_eq_some, Option.some.injEq] at hrun
    obtain ⟨hmade, rfl⟩ := hrun
    exact h.swipe hmade
  | commitDelete =>
    obtain ⟨row, hrow, rfl⟩ := Option.map_eq_some_iff.mp hrun
    exact h.commitDelete hrow

/-- An action does what the row shows exactly when the array kept the comment of the row
and that is still one to offer. -/
theorem Seen.actsOnShown_iff (h : Seen s) : s.2.ActsOnShown a ↔ Unmoved s a := by
  cases a with
  | cellForRow row => exact s.2.cellForRowAt_isSome
  | swipe row => exact s.2.canEditRowAt_isSome
  | commitDelete =>
    unfold ActsOnShown Unmoved
    dsimp only
    refine forall₂_congr fun row hrow => ?_
    rw [← h.agrees.shows_iff (h.made row hrow)]
    constructor
    · rintro ⟨comment, hshown, hdata, -, hown⟩
      exact ⟨⟨comment, hshown, hdata⟩, (s.2.canEditRowAt_eq_true hdata).mpr hown⟩
    · rintro ⟨⟨comment, hshown, hdata⟩, hoffered⟩
      exact ⟨comment, hshown, hdata, s.2.commit_eq_some hdata,
        (s.2.canEditRowAt_eq_true hdata).mp hoffered⟩
  | _ => exact Iff.rfl

end CommentTable

namespace Rows

/-- On both screens a run does to every row what the row shows exactly when each of its
actions finds in the array what the row was made from. -/
theorem act_on_shown_iff (currentUser : Option String) (vc : CommentVC)
    (mainActions : List MainTable.Action) (commentActions : List CommentTable.Action) :
    (EachStep MainTable.step MainTable.ActsOnShown (MainTable.loaded currentUser) mainActions ↔
      EachStep (logged MainTable.step MainTable.seenAfter) MainTable.Unmoved
        ([], MainTable.loaded currentUser) mainActions) ∧
    (EachStep CommentTable.step CommentTable.ActsOnShown
        (CommentTable.loaded vc currentUser) commentActions ↔
      EachStep (logged CommentTable.step CommentTable.seenAfter) CommentTable.Unmoved
        ([], CommentTable.loaded vc currentUser) commentActions) := by
  constructor
  · rw [← eachStep_logged MainTable.seenAfter ([], MainTable.loaded currentUser) mainActions]
    exact eachStep_iff MainTable.Seen (fun s a s' h hstep => h.actsOnShown_iff hstep)
      (fun s a s' h _ hstep => h.step hstep) (MainTable.seen_loaded currentUser) mainActions
  · rw [← eachStep_logged CommentTable.seenAfter ([], CommentTable.loaded vc currentUser)
      commentActions]
    exact eachStep_iff CommentTable.Seen (fun s a s' h hstep => h.actsOnShown_iff)
      (fun s a s' h _ hstep => h.step hstep) (CommentTable.seen_loaded vc currentUser)
      commentActions

/-- Bob hosts one event, and then a later one before the table is reloaded. -/
def hosted : List MainTable.Action :=
  [.delivered 0 [⟨"a", "bob", "A", [""], "2018-12-24 18:00", "Taipei", "Dinner", "a.jpg"⟩],
    .reloadData, .cellForRow 0,
    .delivered 0 [⟨"a", "bob", "A", [""], "2018-12-24 18:00", "Taipei", "Dinner", "a.jpg"⟩,
      ⟨"b", "bob", "B", [""], "2018-12-25 18:00", "Taipei", "Dinner", "b.jpg"⟩]]

def commentScreen : CommentVC where
  event := ⟨"e", "alice", "E", ["bob"], "2018-12-24 18:00", "Taipei", "Dinner", "e.jpg"⟩

/-- Bob swipes the second of three comments, his own. -/
def commented : List CommentTable.Action :=
  [.delivered [⟨"e", "x", "alice", "Hi", "2018-12-01 12:00:00"⟩,
      ⟨"e", "y", "bob", "Hello", "2018-12-01 12:01:00"⟩,
      ⟨"e", "z", "alice", "Bye", "2018-12-01 12:02:00"⟩],
    .reloadData, .cellForRow 0, .cellForRow 1, .cellForRow 2, .swipe 1]

def withdrawn : CommentTable.Action :=
  .delivered [⟨"e", "y", "bob", "Hello", "2018-12-01 12:01:00"⟩,
    ⟨"e", "z", "alice", "Bye", "2018-12-01 12:02:00"⟩]

/-- The row of event a opens event b; the row of Bob's comment deletes Alice's, and when
no second comment is left the index is out of bounds. -/
theorem act_on_other_rows :
    (∃ s, exec MainTable.step (MainTable.loaded (some "bob")) hosted = some s ∧
      (s.shown 0).map (·.eventID) = some "a" ∧ (s.prepare 0).map (·.eventID) = some "b" ∧
      ¬s.ActsOnShown (.selectRow 0)) ∧
    (∃ s s', exec CommentTable.step (CommentTable.loaded commentScreen (some "bob"))
        (commented ++ [withdrawn]) = some s ∧
      (s.shown 1).map (·.userID) = some "bob" ∧ s.step .commitDelete = some s' ∧
      s'.writes = [.removeValue ["comment", "e", "z"]] ∧ ¬s.ActsOnShown .commitDelete) ∧
    (∃ s, exec CommentTable.step (CommentTable.loaded commentScreen (some "bob"))
        (commented ++ [.delivered []]) = some s ∧
      s.swiped = some 1 ∧ s.commit 1 = none ∧ ¬s.ActsOnShown .commitDelete) := by
  refine ⟨⟨_, rfl, rfl, rfl, ?_⟩, ⟨_, _, rfl, rfl, rfl, rfl, ?_⟩, ⟨_, rfl, rfl, rfl, ?_⟩⟩
  · intro h
    obtain ⟨event, hshown, hprepare⟩ := h rfl
    exact absurd (hshown.trans hprepare.symm) (by decide)
  · intro h
    obtain ⟨comment, hshown, hdata, -⟩ := h 1 rfl
    exact absurd (hshown.trans hdata.symm) (by decide)
  · intro h
    obtain ⟨comment, -, hdata, -⟩ := h 1 rfl
    cases hdata

end Rows

end GetTogether
