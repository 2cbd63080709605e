import GetTogether.Recipients
import GetTogether.World.LostUpdates

/-! What a submission issues for each single user. The invited and the removed are
read off the three lists of the screen, up to the hash of the ids. -/
namespace GetTogether.Roster

open Realtime

section Submission

variable (vc : AddEventVC) (runtime : Runtime)

theorem removedMembers_nodup : ((vc.removedMembers runtime).map (·.userID)).Nodup := by
  have hkeys : ((vc.removedMembers runtime).map runtime.hash).Nodup := by
    rw [AddEventVC.removedMembers, ((runtime.users.perm _).map runtime.hash).nodup_iff]
    apply KeyedSet.nodup_subtracting
    exact KeyedSet.nodup_ofArray runtime.hash vc.deletedMembers
  have hcomp : (vc.removedMembers runtime).map runtime.hash =
      ((vc.removedMembers runtime).map (·.userID)).map runtime.hashValue := by
    rw [List.map_map]
    rfl
  exact List.Nodup.of_map _ (hcomp ▸ hkeys)

variable (eventID : String) (newID : Nat → String) (time : String)

theorem recipient_removal {user : GUser} (huser : vc.user = some user) (event : Event)
    (round : Nat) (member : GUser) :
    ∀ write ∈ (vc.removal event newID time round member).writes,
      recipient write = some member.userID := by
  intro write hwrite
  simp only [AddEventVC.removal, huser, Outcome.issue_andThen, Outcome.issue_writes,
    List.cons_append, List.nil_append, List.mem_cons, List.not_mem_nil, or_false] at hwrite
  rcases hwrite with rfl | rfl | rfl | rfl
  · rfl
  · rfl
  · rfl
  · exact recipient_notification _ _

theorem recipient_invitation {user : GUser} (huser : vc.user = some user) (round : Nat)
    (member : GUser) :
    ∀ write ∈ (vc.invitation eventID newID time round member).writes,
      recipient write = some member.userID := by
  intro write hwrite
  simp only [AddEventVC.invitation, huser, Outcome.issue_andThen, Outcome.issue_writes,
    List.cons_append, List.nil_append, List.mem_cons, List.not_mem_nil, or_false] at hwrite
  rcases hwrite with rfl | rfl | rfl
  · rfl
  · rfl
  · exact recipient_notification _ _

theorem isRemoval_removal {user : GUser} (huser : vc.user = some user) (event : Event)
    (round : Nat) (member : GUser) :
    IsRemoval event.eventID member.userID (vc.removal event newID time round member).writes := by
  refine ⟨AddEventVC.removalNotification user event member (newID round) time, user.name, event.title,
    rfl, rfl, rfl, rfl, rfl, ?_⟩
  simp [AddEventVC.removal, huser, AddEventVC.removalNotification]

theorem isInvitation_invitation {user : GUser} (huser : vc.user = some user) (round : Nat)
    (member : GUser) :
    IsInvitation eventID member.userID (vc.invitation eventID newID time round member).writes := by
  refine ⟨vc.invitationNotification user eventID member (newID round) time, user.name,
    vc.form.title, rfl, rfl, rfl, rfl, rfl, ?_⟩
  simp [AddEventVC.invitation, huser, AddEventVC.invitationNotification]

theorem isRemoval_removals {user : GUser} (huser : vc.user = some user) {event : Event}
    (hevent : vc.event = some event) {uid : String} (huid : uid ∈ removedIDs vc runtime) :
    IsRemoval event.eventID uid (writesTo uid (vc.removals runtime newID time).writes) := by
  rw [removedIDs_of_event vc runtime hevent] at huid
  simp only [AddEventVC.removals, hevent, writesTo]
  rcases Outcome.forEach_filter (removal_trapped vc newID time huser event)
    (recipient_removal vc newID time huser event) 0 _ (removedMembers_nodup vc runtime) uid
    with h | h
  · exact absurd huid h.1
  · obtain ⟨round, member, -, rfl, h⟩ := h
    rw [h]
    exact isRemoval_removal vc newID time huser event round member

theorem writesTo_removals_eq_nil {user : GUser} (huser : vc.user = some user) {uid : String}
    (huid : uid ∉ removedIDs vc runtime) :
    writesTo uid (vc.removals runtime newID time).writes = [] := by
  unfold AddEventVC.removals
  cases hevent : vc.event with
  | none => rfl
  | some event =>
    rw [removedIDs_of_event vc runtime hevent] at huid
    rcases Outcome.forEach_filter (removal_trapped vc newID time huser event)
      (recipient_removal vc newID time huser event) 0 _ (removedMembers_nodup vc runtime) uid
      with h | h
    · exact h.2
    · obtain ⟨-, member, hmember, rfl, -⟩ := h
      exact absurd (List.mem_map_of_mem hmember) huid

theorem isInvitation_invitations {user : GUser} (huser : vc.user = some user) {uid : String}
    (huid : uid ∈ editedIDs vc runtime) :
    IsInvitation eventID uid
      (writesTo uid (vc.invitations runtime eventID newID time).writes) := by
  unfold AddEventVC.invitations writesTo
  rcases Outcome.forEach_filter (invitation_trapped vc eventID newID time huser)
    (recipient_invitation vc eventID newID time huser) _ _ (editedIDs_nodup vc runtime) uid
    with h | h
  · exact absurd huid h.1
  · obtain ⟨round, member, -, rfl, h⟩ := h
    rw [h]
    exact isInvitation_invitation vc eventID newID time huser round member

theorem writesTo_invitations_eq_nil {user : GUser} (huser : vc.user = some user) {uid : String}
    (huid : uid ∉ editedIDs vc runtime) :
    writesTo uid (vc.invitations runtime eventID newID time).writes = [] := by
  unfold AddEventVC.invitations writesTo
  rcases Outcome.forEach_filter (invitation_trapped vc eventID newID time huser)
    (recipient_invitation vc eventID newID time huser) _ _ (editedIDs_nodup vc runtime) uid
    with h | h
  · exact h.2
  · obtain ⟨-, member, hmember, rfl, -⟩ := h
    exact absurd (List.mem_map_of_mem hmember) huid

variable (uid autoID url : String)

theorem uploadEventData_of_completes (h : World.Completes vc runtime) :
    vc.uploadEventData runtime (some uid) autoID newID time url =
      .issue (submissionWrites vc runtime uid (vc.submittedID autoID) newID time url) := by
  rcases h with h | ⟨hremoved, hedited⟩
  · obtain ⟨user, huser⟩ := Option.isSome_iff_exists.mp h
    exact uploadEventData_of_user vc runtime newID time huser uid autoID url
  · have hremovals := removals_of_nil vc runtime newID time hremoved
    have hinvitations := invitations_of_nil vc runtime (vc.submittedID autoID) newID time hedited
    simp only [AddEventVC.uploadEventData, submissionWrites, hremovals, hinvitations]
    rfl

/-- A completion that does not get to its end stops after the first writes of a round,
whoever is signed in. -/
theorem stopped_of_not_completes (h : ¬World.Completes vc runtime) :
    ∃ write rest, ∀ uid url, vc.uploadEventData runtime (some uid) autoID newID time url =
      ⟨write :: rest, true⟩ := by
  rw [World.Completes, not_or, Option.not_isSome_iff_eq_none] at h
  have huser := h.1
  unfold AddEventVC.uploadEventData
  cases hremoved : removedIDs vc runtime with
  | cons first rest =>
    obtain ⟨e, v, hremovals⟩ := removals_of_cons vc runtime newID time huser hremoved
    refine ⟨.removeValue ["memberList", e, v], [.removeValue ["eventList", v, e]], ?_⟩
    simp [hremovals, Outcome.andThen]
  | nil =>
    have hremovals := removals_of_nil vc runtime newID time hremoved
    cases hedited : editedIDs vc runtime with
    | nil => exact absurd ⟨hremoved, hedited⟩ h.2
    | cons first rest =>
      have hinvitations :=
        invitations_of_cons vc runtime (vc.submittedID autoID) newID time huser hedited
      refine ⟨.setValue ["invitingMemberList", vc.submittedID autoID, first, "invitingMemberID"]
        (.scalar (.string first)), [.setValue ["invitingEventList", first, vc.submittedID autoID]
          (EventList.uploadedEventListData ⟨vc.submittedID autoID, false, true⟩)], ?_⟩
      simp [hremovals, hinvitations, Outcome.andThen]

theorem recipient_removals_ne_none {user : GUser} (huser : vc.user = some user) :
    ∀ write ∈ (vc.removals runtime newID time).writes, recipient write ≠ none := by
  unfold AddEventVC.removals
  split
  · simp
  · next event _ =>
    apply Outcome.forEach_forall
    intro round member write hwrite
    simp [recipient_removal vc newID time huser event round member write hwrite]

theorem recipient_invitations_ne_none {user : GUser} (huser : vc.user = some user) :
    ∀ write ∈ (vc.invitations runtime eventID newID time).writes, recipient write ≠ none := by
  apply Outcome.forEach_forall
  intro round member write hwrite
  simp [recipient_invitation vc eventID newID time huser round member write hwrite]

theorem writesTo_submissionWrites (member : String) :
    writesTo member (submissionWrites vc runtime uid eventID newID time url) =
      writesTo member (vc.removals runtime newID time).writes ++
        writesTo member (vc.invitations runtime eventID newID time).writes := by
  have hlast : writesTo member [.setValue ["event", eventID]
      (vc.storedEvent runtime uid eventID url).uploadedEventData] = [] := rfl
  rw [submissionWrites, writesTo_append, writesTo_append, hlast, List.append_nil]

theorem event_submissionWrites {user : GUser} (huser : vc.user = some user) :
    (submissionWrites vc runtime uid eventID newID time url).filter (recipient · = none) =
      [.setValue ["event", eventID] (vc.storedEvent runtime uid eventID url).uploadedEventData] := by
  have hremovals := recipient_removals_ne_none vc runtime newID time huser
  have hinvitations := recipient_invitations_ne_none vc runtime eventID newID time huser
  rw [submissionWrites, List.filter_append, List.filter_append,
    List.filter_eq_nil_iff.mpr (by simpa using hremovals),
    List.filter_eq_nil_iff.mpr (by simpa using hinvitations)]
  rfl

theorem notificationIDs_invitations {user : GUser} (huser : vc.user = some user) :
    notificationIDs (vc.invitations runtime eventID newID time).writes =
      (List.range' (vc.removedMembers runtime).length (vc.editedMembers runtime).length).map
        newID := by
  apply Outcome.forEach_filterMap (invitation_trapped vc eventID newID time huser)
  intro round member
  simp [AddEventVC.invitation, huser, notificationKey]

theorem submits_uploadEventData (h : World.Completes vc runtime) :
    Submits (vc.submittedID autoID) (· ∈ editedIDs vc runtime) (· ∈ removedIDs vc runtime)
      (vc.storedEvent runtime uid (vc.submittedID autoID) url)
      (vc.uploadEventData runtime (some uid) autoID newID time url) := by
  rw [uploadEventData_of_completes vc runtime newID time uid autoID url h]
  rcases h with h | ⟨hremoved, hedited⟩
  · obtain ⟨user, huser⟩ := Option.isSome_iff_exists.mp h
    refine ⟨rfl, ?_, ?_, ?_, event_submissionWrites vc runtime _ newID time uid url huser⟩
    · intro member hmember
      have hnot := not_mem_removedIDs_of_mem_editedIDs vc runtime hmember
      rw [Outcome.issue_writes, writesTo_submissionWrites,
        writesTo_removals_eq_nil vc runtime newID time huser hnot, List.nil_append]
      exact isInvitation_invitations vc runtime _ newID time huser hmember
    · intro member hmember
      have hnot := fun hedited => not_mem_removedIDs_of_mem_editedIDs vc runtime hedited hmember
      rw [Outcome.issue_writes, writesTo_submissionWrites,
        writesTo_invitations_eq_nil vc runtime _ newID time huser hnot, List.append_nil]
      cases hevent : vc.event with
      | none => simp [removedIDs, AddEventVC.isEdit, hevent] at hmember
      | some event =>
        have hid : vc.submittedID autoID = event.eventID := by
          simp [AddEventVC.submittedID, hevent]
        rw [hid]
        exact isRemoval_removals vc runtime newID time huser hevent hmember
    · intro member hinvited hremoved
      rw [Outcome.issue_writes, writesTo_submissionWrites,
        writesTo_removals_eq_nil vc runtime newID time huser hremoved,
        writesTo_invitations_eq_nil vc runtime _ newID time huser hinvited]
      rfl
  · have hremovals := removals_of_nil vc runtime newID time hremoved
    have hinvitations := invitations_of_nil vc runtime (vc.submittedID autoID) newID time hedited
    rw [submissionWrites, hremovals, hinvitations, hremoved, hedited]
    refine ⟨rfl, ?_, ?_, fun _ _ _ => rfl, rfl⟩
    · exact fun _ hmember => absurd hmember List.not_mem_nil
    · exact fun _ hmember => absurd hmember List.not_mem_nil

end Submission

end GetTogether.Roster
