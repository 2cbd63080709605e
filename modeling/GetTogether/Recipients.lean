import GetTogether.EventContentVC

/-! Whom a write is about. Every entry of the membership tables has one user in its
path and every notification names one in its record. -/
namespace GetTogether

open Realtime

/-- The user in the path of an entry of the membership tables. -/
def entryOwner : Path → Option String
  | ["invitingMemberList", _, uid, _] => some uid
  | ["memberList", _, uid] => some uid
  | ["invitingEventList", uid, _] => some uid
  | ["eventList", uid, _] => some uid
  | _ => none

def recipient : Write → Option String
  | .setValue ["notification", _] value => (value.get ["userID"]).bind Scalar.string?
  | .setValue path _ => entryOwner path
  | .updateChildValues path _ => entryOwner path
  | .removeValue path => entryOwner path

/-- The writes about one user, in the order they are issued. -/
def writesTo (uid : String) (writes : List Write) : List Write :=
  writes.filter (recipient · = some uid)

def notificationKey : Write → Option String
  | .setValue ["notification", notificationID] _ => some notificationID
  | _ => none

def notificationIDs (writes : List Write) : List String := writes.filterMap notificationKey

@[simp] theorem writesTo_append (uid : String) (first second : List Write) :
    writesTo uid (first ++ second) = writesTo uid first ++ writesTo uid second :=
  List.filter_append ..

theorem notificationIDs_append (first second : List Write) :
    notificationIDs (first ++ second) = notificationIDs first ++ notificationIDs second :=
  List.filterMap_append ..

@[simp] theorem recipient_notification (notificationID : String) (notification : GNotification) :
    recipient (.setValue ["notification", notificationID] notification.uploadNotification) =
      some notification.userID := by
  simp [recipient, GNotification.uploadNotification, Scalar.string?]

def told (notification : GNotification) : Write :=
  .setValue ["notification", notification.notificationID] notification.uploadNotification

theorem notificationIDs_told (notifications : List GNotification) :
    notificationIDs (notifications.map told) = notifications.map (·.notificationID) := by
  rw [notificationIDs, List.filterMap_map, ← List.filterMap_eq_map]
  rfl

theorem writesTo_told {notifications : List GNotification}
    (hnodup : (notifications.map (·.userID)).Nodup) (uid : String) :
    (uid ∉ notifications.map (·.userID) ∧ writesTo uid (notifications.map told) = []) ∨
      ∃ notification ∈ notifications, notification.userID = uid ∧
        writesTo uid (notifications.map told) = [told notification] := by
  induction notifications with
  | nil => exact .inl ⟨List.not_mem_nil, rfl⟩
  | cons first rest ih =>
    rw [List.map_cons, List.nodup_cons] at hnodup
    have hfirst : recipient (told first) = some first.userID := recipient_notification _ first
    rw [List.map_cons, List.map_cons, writesTo, List.filter_cons, hfirst]
    rcases ih hnodup.2 with ⟨hnone, hrest⟩ | ⟨later, hlater, hid, hrest⟩
    · by_cases huid : first.userID = uid
      · refine .inr ⟨first, List.mem_cons_self, huid, ?_⟩
        rw [if_pos (by simp [huid])]
        exact congrArg _ hrest
      · refine .inl ⟨?_, ?_⟩
        · rw [List.mem_cons, not_or]
          exact ⟨Ne.symm huid, hnone⟩
        · rw [if_neg (by simp [huid])]
          exact hrest
    · have huid : first.userID ≠ uid := by
        intro huid
        rw [huid, ← hid] at hnodup
        exact hnodup.1 (List.mem_map_of_mem hlater)
      refine .inr ⟨later, List.mem_cons_of_mem first hlater, hid, ?_⟩
      rw [if_neg (by simp [huid])]
      exact hrest

/-- One user is invited: listed among the invitees, given a pending record, and told once. -/
def IsInvitation (eventID uid : String) (writes : List Write) : Prop :=
  ∃ (notification : GNotification) (sender title : String), notification.userID = uid ∧
    notification.eventID = eventID ∧ notification.isRead = false ∧
    notification.isRemoved = false ∧
    notification.message = quoted sender ++ " 邀請您加入 " ++ bracketed title ∧
    writes = [
      .setValue ["invitingMemberList", eventID, uid, "invitingMemberID"] (.scalar (.string uid)),
      .setValue ["invitingEventList", uid, eventID]
        (EventList.uploadedEventListData ⟨eventID, false, true⟩),
      .setValue ["notification", notification.notificationID] notification.uploadNotification]

/-- One user is removed: taken out of both indexes, no longer a member, and told once. -/
def IsRemoval (eventID uid : String) (writes : List Write) : Prop :=
  ∃ (notification : GNotification) (sender title : String), notification.userID = uid ∧
    notification.eventID = eventID ∧ notification.isRead = false ∧
    notification.isRemoved = true ∧
    notification.message = quoted sender ++ " 將您從 " ++ bracketed title ++ " 移出成員" ∧
    writes = [
      .removeValue ["memberList", eventID, uid],
      .removeValue ["eventList", uid, eventID],
      .updateChildValues ["invitingEventList", uid, eventID] [("isMember", .bool false)],
      .setValue ["notification", notification.notificationID] notification.uploadNotification]

theorem IsInvitation.ne_nil {eventID uid : String} {writes : List Write}
    (h : IsInvitation eventID uid writes) : writes ≠ [] := by
  obtain ⟨notification, sender, title, -, -, -, -, -, rfl⟩ := h
  simp

theorem IsRemoval.ne_nil {eventID uid : String} {writes : List Write}
    (h : IsRemoval eventID uid writes) : writes ≠ [] := by
  obtain ⟨notification, sender, title, -, -, -, -, -, rfl⟩ := h
  simp

theorem IsInvitation.not_isRemoval {eventID uid : String} {writes : List Write}
    (h : IsInvitation eventID uid writes) : ¬IsRemoval eventID uid writes := by
  obtain ⟨notification, sender, title, -, -, -, -, -, rfl⟩ := h
  rintro ⟨other, sender, title, -, -, -, -, -, h⟩
  simp at h

/-- A submission that ran to its end: who is invited, who is removed, and the event
that is written. -/
structure Submits (eventID : String) (invited removed : String → Prop) (event : Event)
    (outcome : Outcome) : Prop where
  trapped : outcome.trapped = false
  invitations : ∀ uid, invited uid → IsInvitation eventID uid (writesTo uid outcome.writes)
  removals : ∀ uid, removed uid → IsRemoval eventID uid (writesTo uid outcome.writes)
  nobodyElse : ∀ uid, ¬invited uid → ¬removed uid → writesTo uid outcome.writes = []
  event : outcome.writes.filter (recipient · = none) =
    [.setValue ["event", eventID] event.uploadedEventData]

namespace Submits

variable {eventID : String} {invited removed invited' removed' : String → Prop}
  {event event' : Event} {outcome : Outcome}

theorem invited_iff (h : Submits eventID invited removed event outcome) (uid : String) :
    invited uid ↔ IsInvitation eventID uid (writesTo uid outcome.writes) := by
  constructor
  · exact h.invitations uid
  · intro hinvitation
    by_contra hnot
    by_cases hremoved : removed uid
    · exact hinvitation.not_isRemoval (h.removals uid hremoved)
    · exact hinvitation.ne_nil (h.nobodyElse uid hnot hremoved)

theorem removed_iff (h : Submits eventID invited removed event outcome) (uid : String) :
    removed uid ↔ IsRemoval eventID uid (writesTo uid outcome.writes) := by
  constructor
  · exact h.removals uid
  · intro hremoval
    by_contra hnot
    by_cases hinvited : invited uid
    · exact (h.invitations uid hinvited).not_isRemoval hremoval
    · exact hremoval.ne_nil (h.nobodyElse uid hinvited hnot)

/-- Whom a submission invites and removes is read off its writes. -/
theorem unique (h : Submits eventID invited removed event outcome)
    (h' : Submits eventID invited' removed' event' outcome) (uid : String) :
    (invited uid ↔ invited' uid) ∧ (removed uid ↔ removed' uid) :=
  ⟨(h.invited_iff uid).trans (h'.invited_iff uid).symm,
    (h.removed_iff uid).trans (h'.removed_iff uid).symm⟩

theorem congr (h : Submits eventID invited removed event outcome)
    (hinvited : ∀ uid, invited uid ↔ invited' uid)
    (hremoved : ∀ uid, removed uid ↔ removed' uid) :
    Submits eventID invited' removed' event outcome := by
  have hinvited : invited = invited' := funext fun uid => propext (hinvited uid)
  have hremoved : removed = removed' := funext fun uid => propext (hremoved uid)
  exact hinvited ▸ hremoved ▸ h

end Submits

end GetTogether
