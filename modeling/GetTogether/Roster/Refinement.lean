import GetTogether.EventContentVC
import GetTogether.Roster.Edits

/-! The membership tables as the database stores them. Every write of a handler makes
one edit of the tables, so every handler refines one change of them. -/
namespace GetTogether.Roster

open Realtime

def tables (db : Store) : Tables String String where
  memberIDs := fun eventID => (db.array? ["event", eventID, "memberIDs"]).getD []
  invitingEventList := fun uid eventID =>
    ⟨db.string? ["invitingEventList", uid, eventID, "eventID"],
      db.bool? ["invitingEventList", uid, eventID, "isReply"],
      db.bool? ["invitingEventList", uid, eventID, "isMember"]⟩
  invitingMemberList := fun eventID uid =>
    db.string? ["invitingMemberList", eventID, uid, "invitingMemberID"]

@[simp] theorem pending_tables (db : Store) (uid eventID : String) :
    ((tables db).invitingEventList uid eventID).pending = true ↔
      db.bool? ["invitingEventList", uid, eventID, "isReply"] = some false :=
  decide_eq_true_iff

theorem full_tables (db : Store) (uid eventID : String) :
    ((tables db).invitingEventList uid eventID).full = true ↔
      (db.string? ["invitingEventList", uid, eventID, "eventID"]).isSome = true ∧
      (db.bool? ["invitingEventList", uid, eventID, "isReply"]).isSome = true ∧
      (db.bool? ["invitingEventList", uid, eventID, "isMember"]).isSome = true := by
  simp only [Invitation.full, tables, Bool.and_eq_true, and_assoc]

@[simp] theorem invitingMemberList_tables (db : Store) (eventID uid : String) :
    (tables db).invitingMemberList eventID uid =
      db.string? ["invitingMemberList", eventID, uid, "invitingMemberID"] := rfl

theorem tables_apply (db : Store) (write : Write) :
    tables (write.apply db) =
      { memberIDs := fun eventID =>
          (((write.writtenAt ["event", eventID, "memberIDs"]).getD
            (db.get ["event", eventID, "memberIDs"])).bind Scalar.array?).getD []
        invitingEventList := fun uid eventID =>
          ⟨((write.writtenAt ["invitingEventList", uid, eventID, "eventID"]).getD
              (db.get ["invitingEventList", uid, eventID, "eventID"])).bind Scalar.string?,
            ((write.writtenAt ["invitingEventList", uid, eventID, "isReply"]).getD
              (db.get ["invitingEventList", uid, eventID, "isReply"])).bind Scalar.bool?,
            ((write.writtenAt ["invitingEventList", uid, eventID, "isMember"]).getD
              (db.get ["invitingEventList", uid, eventID, "isMember"])).bind Scalar.bool?⟩
        invitingMemberList := fun eventID uid =>
          ((write.writtenAt ["invitingMemberList", eventID, uid, "invitingMemberID"]).getD
            (db.get ["invitingMemberList", eventID, uid, "invitingMemberID"])).bind
              Scalar.string? } := by
  simp only [tables, Store.string?, Store.bool?, Store.array?, Write.get_apply]

/-- The write makes the edit, whatever is stored. -/
def Makes (write : Write) (edit : Edit String String) : Prop :=
  ∀ db, tables (write.apply db) = edit.apply (tables db)

theorem tables_of_makes {writes : List Write} {edits : List (Edit String String)}
    (h : List.Forall₂ Makes writes edits) (db : Store) :
    tables (db.applyAll writes) = (tables db).applyAll edits := by
  induction h generalizing db with
  | nil => rfl
  | cons hmakes _ ih =>
    rw [Tables.applyAll_cons, ← hmakes db]
    exact ih _

theorem makes_keep {write : Write}
    (h : ∀ key ∈ ["event", "invitingEventList", "invitingMemberList"], write.Apart key) :
    Makes write .keep := by
  intro db
  have hevent := h "event" (by simp)
  have hlist := h "invitingEventList" (by simp)
  have hasked := h "invitingMemberList" (by simp)
  rw [tables_apply]
  simp only [hevent _, hlist _, hasked _, Option.getD_none]
  rfl

theorem makes_invitation {write : Write} {edit : Edit String String} {uid eventID : String}
    (f : Invitation String → Invitation String)
    (hedit : ∀ before, edit.apply before =
      { before with invitingEventList := before.mapInvitation uid eventID f })
    (h : ∀ key ∈ ["event", "invitingMemberList"], write.Apart key)
    (helse : ∀ u e field, ¬(uid = u ∧ eventID = e) →
      write.writtenAt ["invitingEventList", u, e, field] = none)
    (hat : ∀ db, (tables (write.apply db)).invitingEventList uid eventID =
      f ((tables db).invitingEventList uid eventID)) : Makes write edit := by
  intro db
  have hevent := h "event" (by simp)
  have hasked := h "invitingMemberList" (by simp)
  rw [hedit]
  ext1
  · rw [tables_apply]
    simp only [hevent _, Option.getD_none]
    rfl
  · funext u e
    by_cases hsame : uid = u ∧ eventID = e
    · obtain ⟨rfl, rfl⟩ := hsame
      simpa [Tables.mapInvitation] using hat db
    · have hne : ¬(u = uid ∧ e = eventID) := fun hs => hsame ⟨hs.1.symm, hs.2.symm⟩
      rw [tables_apply]
      simp only [helse u e _ hsame, Option.getD_none, Tables.mapInvitation, hne, if_false]
      rfl
  · rw [tables_apply]
    simp only [hasked _, Option.getD_none]
    rfl

theorem makes_entry {write : Write} {edit : Edit String String} {uid eventID : String}
    (entry : Option String)
    (hedit : ∀ before, edit.apply before =
      { before with invitingMemberList := fun e u =>
          if e = eventID ∧ u = uid then entry else before.invitingMemberList e u })
    (h : ∀ key ∈ ["event", "invitingEventList"], write.Apart key)
    (helse : ∀ e u, ¬(eventID = e ∧ uid = u) →
      write.writtenAt ["invitingMemberList", e, u, "invitingMemberID"] = none)
    (hat : ∀ db, (tables (write.apply db)).invitingMemberList eventID uid = entry) :
    Makes write edit := by
  intro db
  have hevent := h "event" (by simp)
  have hlist := h "invitingEventList" (by simp)
  rw [hedit]
  ext1
  · rw [tables_apply]
    simp only [hevent _, Option.getD_none]
    rfl
  · rw [tables_apply]
    simp only [hlist _, Option.getD_none]
    rfl
  · funext e u
    by_cases hsame : e = eventID ∧ u = uid
    · obtain ⟨rfl, rfl⟩ := hsame
      simpa using hat db
    · have hne : ¬(eventID = e ∧ uid = u) := fun hs => hsame ⟨hs.1.symm, hs.2.symm⟩
      rw [tables_apply]
      simp only [helse e u hne, Option.getD_none, hsame, if_false]
      rfl

theorem makes_reply (uid eventID : String) :
    Makes (.updateChildValues ["invitingEventList", uid, eventID] [("isReply", .bool true)])
      (.reply uid eventID) := by
  apply makes_invitation (fun i => { i with isReply := some true }) (fun _ => rfl)
  · simp [Write.Apart]
  · intro u e field hne
    simp [hne, ← and_assoc]
  · intro db
    simp [tables, Store.string?, Store.bool?, Scalar.bool?, Write.get_apply]

theorem makes_leave (uid eventID : String) :
    Makes (.updateChildValues ["invitingEventList", uid, eventID] [("isMember", .bool false)])
      (.leave uid eventID) := by
  apply makes_invitation (fun i => { i with isMember := some false }) (fun _ => rfl)
  · simp [Write.Apart]
  · intro u e field hne
    simp [hne, ← and_assoc]
  · intro db
    simp [tables, Store.string?, Store.bool?, Scalar.bool?, Write.get_apply]

theorem makes_invite (uid eventID : String) :
    Makes (.setValue ["invitingEventList", uid, eventID]
      (EventList.uploadedEventListData ⟨eventID, false, true⟩)) (.invite uid eventID) := by
  apply makes_invitation (fun _ => ⟨some eventID, some false, some true⟩) (fun _ => rfl)
  · simp [Write.Apart]
  · intro u e field hne
    simp [hne]
  · intro db
    simp [tables_apply, EventList.uploadedEventListData, Scalar.string?, Scalar.bool?]

theorem makes_unlist (uid eventID : String) :
    Makes (.removeValue ["invitingMemberList", eventID, uid]) (.unlist uid eventID) := by
  apply makes_entry none (fun _ => rfl)
  · simp [Write.Apart]
  · intro e u hne
    simp [hne]
  · intro db
    simp [tables_apply]

theorem makes_list (uid eventID : String) :
    Makes (.setValue ["invitingMemberList", eventID, uid, "invitingMemberID"]
      (.scalar (.string uid))) (.list uid eventID) := by
  apply makes_entry (some uid) (fun _ => rfl)
  · simp [Write.Apart]
  · intro e u hne
    simp [hne]
  · intro db
    simp [tables_apply, Scalar.string?]

/-- A write that leaves an array at `memberIDs` of one event; an array without elements
is not stored, and reads back as no members. -/
theorem makes_members {write : Write} {eventID : String} {members : List String}
    (stored : Option Scalar) (hstored : (stored.bind Scalar.array?).getD [] = members)
    (hevent : ∀ e, write.writtenAt ["event", e, "memberIDs"] =
      if eventID = e then some stored else none)
    (h : ∀ key ∈ ["invitingEventList", "invitingMemberList"], write.Apart key) :
    Makes write (.members eventID members) := by
  intro db
  have hlist := h "invitingEventList" (by simp)
  have hasked := h "invitingMemberList" (by simp)
  rw [tables_apply]
  ext1
  · funext e
    by_cases he : eventID = e
    · simp [hevent, he, hstored, Edit.apply]
    · simp [hevent, he, Ne.symm he, Edit.apply, tables, Store.array?]
  · simp only [hlist _, Option.getD_none]
    rfl
  · simp only [hasked _, Option.getD_none]
    rfl

theorem agree_makes (vc : EventContentVC) (prompt : AnswerSelector) :
    List.Forall₂ Makes (vc.agree prompt)
      (Change.accept vc.currentUser vc.event.eventID vc.event.memberIDs).edits := by
  refine .cons ?_ (.cons (makes_reply _ _) (.cons (makes_unlist _ _) (.cons ?_ .nil)))
  · exact makes_keep (by simp [Write.Apart])
  · apply makes_members (some (.array (vc.event.memberIDs ++ [vc.currentUser])))
    · rfl
    · simp
    · simp [Write.Apart]

theorem reject_makes (vc : EventContentVC) (prompt : AnswerSelector)
    {notification : GNotification} (hnotification : vc.notification = some notification) :
    List.Forall₂ Makes (vc.reject prompt).writes
      (Change.reject vc.currentUser vc.event.eventID).edits := by
  simp only [EventContentVC.reject, hnotification, Outcome.issue_writes]
  refine .cons ?_ (.cons (makes_reply _ _) (.cons (makes_leave _ _) (.cons (makes_unlist _ _)
    (.cons ?_ .nil))))
  · exact makes_keep (by simp [Write.Apart])
  · exact makes_keep (by simp [Write.Apart])

theorem dropOut_makes (vc : EventContentVC) (autoID time : String) :
    List.Forall₂ Makes (vc.dropOut autoID time)
      (Change.dropOut vc.currentUser vc.event.eventID vc.event.memberIDs).edits := by
  refine .cons ?_ (.cons (makes_leave _ _) (.cons ?_ .nil))
  · generalize vc.event.memberIDs.filter (· ≠ vc.currentUser) = kept
    apply makes_members ((Tree.scalar (.array kept)).get [])
    · cases kept <;> simp [Scalar.array?]
    · simp
    · simp [Write.Apart]
  · exact makes_keep (by simp [Write.Apart])

theorem tables_agree (db : Store) (vc : EventContentVC) (prompt : AnswerSelector) :
    tables (db.applyAll (vc.agree prompt)) =
      (tables db).accept vc.currentUser vc.event.eventID vc.event.memberIDs := by
  rw [tables_of_makes (agree_makes vc prompt), Change.applyAll_edits, Change.apply]

theorem tables_reject (db : Store) (vc : EventContentVC) (prompt : AnswerSelector)
    {notification : GNotification} (hnotification : vc.notification = some notification) :
    tables (db.applyAll (vc.reject prompt).writes) =
      (tables db).reject vc.currentUser vc.event.eventID := by
  rw [tables_of_makes (reject_makes vc prompt hnotification), Change.applyAll_edits, Change.apply]

theorem tables_dropOut (db : Store) (vc : EventContentVC) (autoID time : String) :
    tables (db.applyAll (vc.dropOut autoID time)) =
      (tables db).dropOut vc.currentUser vc.event.eventID vc.event.memberIDs := by
  rw [tables_of_makes (dropOut_makes vc autoID time), Change.applyAll_edits, Change.apply]

end GetTogether.Roster
