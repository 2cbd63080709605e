import GetTogether.Feed.Keys
import GetTogether.Realtime.Commute

/-! What a handler is about: one event, one comment or one user. Whatever else it writes
is a notification, a new one or a mark on one it was shown. -/
namespace GetTogether

open Realtime Roster

inductive Topic where
  | user (uid : String)
  | event (eventID : String)
  | comment (eventID commentID : String)
  | notification (notificationID : String)
  deriving DecidableEq, Repr

def topic : Path → Option Topic
  | "user" :: uid :: _ => some (.user uid)
  | "event" :: eventID :: _ => some (.event eventID)
  | "invitingEventList" :: _ :: eventID :: _ => some (.event eventID)
  | "invitingMemberList" :: eventID :: _ => some (.event eventID)
  | "eventList" :: _ :: eventID :: _ => some (.event eventID)
  | "memberList" :: eventID :: _ => some (.event eventID)
  | "comment" :: eventID :: commentID :: _ => some (.comment eventID commentID)
  | "notification" :: notificationID :: _ => some (.notification notificationID)
  | _ => none

theorem hereditary_topic : Hereditary topic := by
  intro path rest subject h
  unfold topic at h
  split at h
  · exact h
  · exact h
  · exact h
  · exact h
  · exact h
  · exact h
  · exact h
  · exact h
  · cases h

namespace Feed

def subject (ids : AutoId) (f : Feed) : Action → Option Topic
  | .base (.saveUser user) => some (.user user.userID)
  | .base (.agree screen) | .base (.reject screen) | .base (.dropOut screen _) =>
    (f.world.contentVCs[screen]?).map fun vc => .event vc.event.eventID
  | .base (.uploaded screen _ _ _) => (f.world.addVCs[screen]?).bind fun vc =>
    match vc.phase with
    | .uploading autoID => some (.event (vc.submittedID autoID))
    | _ => none
  | .table screen .commitDelete => do
    let s ← f.commentVCs[screen]?
    let row ← s.swiped
    let comment ← s.commentData[row]?
    return .comment s.vc.event.eventID comment.commentID
  | .inputPressed screen _ _ _ => (f.commentVCs[screen]?).map fun s =>
    .comment s.vc.event.eventID (ids.key f.world.drawn)
  | _ => none

/-- One write of a handler: about its subject, or a notification. -/
inductive Part (known : String → Prop) : Option Topic → Write → Prop
  | about {subject : Topic} {write : Write} : topic write.path = some subject →
      (∀ id, subject ≠ .notification id) → Part known (some subject) write
  | told {subject : Option Topic} (notification : GNotification) :
      Part known subject (told notification)
  | marked {subject : Option Topic} {id field : String} : known id →
      field = "isRead" ∨ field = "isRemoved" →
      Part known subject (.updateChildValues ["notification", id] [(field, .bool true)])

theorem topKey_of_topic {write : Write} {subject : Topic} (h : topic write.path = some subject)
    (hsubject : ∀ id, subject ≠ .notification id) :
    ∃ head, write.topKey = some head ∧ head ≠ "notification" := by
  have hhead : ∃ head, write.path.head? = some head ∧ head ≠ "notification" := by
    generalize write.path = path at h
    unfold topic at h
    split at h <;> cases h <;> simp_all
  cases write <;> exact hhead

theorem Part.entry {known : String → Prop} {subject : Option Topic} {write : Write}
    (h : Part known subject write) : notificationLedger.Entry known write := by
  cases h with
  | about htopic hsubject =>
    obtain ⟨head, hhead, hne⟩ := topKey_of_topic htopic hsubject
    exact entry_of_topKey hhead hne
  | told notification => exact entry_told notification
  | marked hknown hfield => exact entry_flag hknown hfield

theorem Part.event {known : String → Prop} {eventID : String} {write : Write}
    (h : topic write.path = some (.event eventID)) : Part known (some (.event eventID)) write :=
  .about h (by simp)

theorem parts_uploadEventData {known : String → Prop} (vc : AddEventVC) (runtime : Runtime)
    (newID : Nat → String) (time autoID url uid : String) :
    ∀ write ∈ (vc.uploadEventData runtime (some uid) autoID newID time url).writes,
      Part known (some (.event (vc.submittedID autoID))) write := by
  apply vc.uploadEventData_forall
  · intro event hevent round member
    have hid : vc.submittedID autoID = event.eventID := by rw [AddEventVC.submittedID, hevent]
    rw [hid]
    apply Outcome.andThen_forall
    · simp only [Outcome.issue_writes, List.forall_mem_cons]
      exact ⟨.event rfl, .event rfl, by simp⟩
    · cases vc.user with
      | none => simp [Outcome.trap]
      | some user =>
        simp only [Outcome.issue_writes, List.forall_mem_cons]
        exact ⟨.event rfl, .told (AddEventVC.removalNotification ..), by simp⟩
  · intro round member
    apply Outcome.andThen_forall
    · simp only [Outcome.issue_writes, List.forall_mem_cons]
      exact ⟨.event rfl, .event rfl, by simp⟩
    · cases vc.user with
      | none => simp [Outcome.trap]
      | some user =>
        simp only [Outcome.issue_writes, List.forall_mem_cons]
        exact ⟨.told (vc.invitationNotification ..), by simp⟩
  · exact .event rfl

/-- Everything a handler writes is about its subject, or a notification; a notification that
is marked is on a screen of the account. -/
theorem Step.parts {ids : AutoId} {f f' : Feed} {a : Action} (h : Step ids f a f')
    {known : String → Prop}
    (hcontent : ∀ vc ∈ f.world.contentVCs, ∀ notification, vc.notification = some notification →
      f.author a = some vc.currentUser → known notification.notificationID)
    (hinboxes : ∀ inbox ∈ f.inboxes, ∀ notification ∈ inbox.vc.notificationData,
      f.author a = some inbox.currentUser → known notification.notificationID) :
    ∀ write ∈ f.issued ids a, Part known (f.subject ids a) write := by
  cases h with
  | @base action world h =>
    simp only [issued]
    cases h with
    | saveUser _ =>
      simp only [World.issued, subject, List.forall_mem_singleton]
      exact .about rfl (by simp)
    | agree hvc hprompt =>
      simp only [World.issued, hvc, hprompt, subject, Option.map_some, Option.getD_some,
        EventContentVC.agree, List.forall_mem_cons]
      exact ⟨.told (EventContentVC.agreeNotification _ _), .event rfl, .event rfl, .event rfl,
        by simp⟩
    | @reject screen vc prompt notification hvc hprompt hnotification =>
      have hknown := hcontent vc (List.mem_of_getElem? hvc) notification hnotification
        (by simp [author, World.author, hvc])
      simp only [World.issued, hvc, hprompt, subject, Option.map_some, Option.getD_some,
        EventContentVC.reject, hnotification, Outcome.issue_writes, List.forall_mem_cons]
      exact ⟨.marked hknown (.inr rfl), .event rfl, .event rfl, .event rfl,
        .told (vc.rejectNotification prompt), by simp⟩
    | @dropOut screen time vc hvc _ _ =>
      simp only [World.issued, hvc, subject, Option.map_some, EventContentVC.dropOut,
        List.forall_mem_cons]
      exact ⟨.event rfl, .event rfl, .told (vc.dropOutNotification _ time), by simp⟩
    | uploaded hvc hphase =>
      simp only [World.issued, hvc, hphase, subject, Option.bind_some]
      exact parts_uploadEventData _ _ _ _ _ _ _
    | _ => simp [World.issued]
  | @table screen action s s' hs _ _ =>
    simp only [issued, hs]
    rcases written_eq s action with heq | ⟨row, comment, rfl, hrow, hcomment, heq⟩ <;> rw [heq]
    · simp
    · have hsubject : f.subject ids (.table screen .commitDelete) =
          some (.comment s.vc.event.eventID comment.commentID) := by
        simp [subject, hs, hrow, hcomment]
      rw [hsubject, List.forall_mem_singleton]
      exact .about rfl (by simp)
  | inputPressed hs huser =>
    simp only [issued, hs, huser, subject, CommentVC.inputPressed, Option.map_some,
      Option.getD_some, List.forall_mem_singleton]
    exact .about rfl (by simp)
  | senderFetched hinput _ hwrites =>
    simp only [issued, hinput, hwrites, Option.getD_some]
    rcases Input.writes_eq_some hwrites with rfl | ⟨sender, -, rfl⟩
    · simp
    · intro write hwrite
      obtain ⟨notification, -, rfl⟩ := mem_userFetched hwrite
      exact .told notification
  | @didSelectRow i row inbox notification hinbox hrow =>
    have hknown := hinboxes inbox (List.mem_of_getElem? hinbox) notification
      (List.mem_of_getElem? hrow) (by simp [author, hinbox])
    simp only [issued, hinbox, NotificationVC.didSelectRowAt, hrow]
    simpa using Part.marked hknown (.inl rfl)
  | _ => simp [issued]

end Feed

end GetTogether
