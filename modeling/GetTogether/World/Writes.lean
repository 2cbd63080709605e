import GetTogether.World.Rules

/-! The writes an action issues. Every scalar among them lies where the schema of
the records puts it, and only saving a profile writes to the user records. -/
namespace GetTogether

open Realtime Roster

namespace EventContentVC

theorem agree_within (vc : EventContentVC) (prompt : AnswerSelector) :
    ∀ write ∈ vc.agree prompt, write.Within Schema := by
  simp only [agree, List.forall_mem_cons]
  refine ⟨?_, ?_, Write.within_removeValue _, ?_, by simp⟩
  · exact (vc.agreeNotification prompt).within_schema
  · exact Write.within_updateChildValues (.listedFlag _ _ _ (by simp))
  · exact Write.within_updateChildValues (.memberIDs _ _)

theorem agree_apart (vc : EventContentVC) (prompt : AnswerSelector) :
    ∀ write ∈ vc.agree prompt, write.Apart "user" := by
  simp only [agree, List.forall_mem_cons]
  refine ⟨Write.apart_setValue ?_ _ _, Write.apart_updateChildValues ?_ _ _ _,
    Write.apart_removeValue ?_ _, Write.apart_updateChildValues ?_ _ _ _, by simp⟩ <;> decide

theorem reject_within (vc : EventContentVC) (prompt : AnswerSelector) :
    ∀ write ∈ (vc.reject prompt).writes, write.Within Schema := by
  unfold reject
  cases vc.notification with
  | none => simp [Outcome.trap]
  | some notification =>
    simp only [Outcome.issue_writes, List.forall_mem_cons]
    refine ⟨?_, ?_, ?_, Write.within_removeValue _, ?_, by simp⟩
    · exact Write.within_updateChildValues (.notificationFlag _ _ (by simp))
    · exact Write.within_updateChildValues (.listedFlag _ _ _ (by simp))
    · exact Write.within_updateChildValues (.listedFlag _ _ _ (by simp))
    · exact (vc.rejectNotification prompt).within_schema

theorem reject_apart (vc : EventContentVC) (prompt : AnswerSelector) {key : String}
    (hkey : key = "user" ∨ key = "event") :
    ∀ write ∈ (vc.reject prompt).writes, write.Apart key := by
  unfold reject
  cases vc.notification with
  | none => simp [Outcome.trap]
  | some notification =>
    simp only [Outcome.issue_writes, List.forall_mem_cons]
    refine ⟨Write.apart_updateChildValues ?_ _ _ _, Write.apart_updateChildValues ?_ _ _ _,
      Write.apart_updateChildValues ?_ _ _ _, Write.apart_removeValue ?_ _,
      Write.apart_setValue ?_ _ _, by simp⟩ <;>
      rcases hkey with rfl | rfl <;> decide

theorem dropOut_within (vc : EventContentVC) (autoID time : String) :
    ∀ write ∈ vc.dropOut autoID time, write.Within Schema := by
  simp only [dropOut, List.forall_mem_cons]
  refine ⟨?_, ?_, ?_, by simp⟩
  · exact Write.within_scalar (.memberIDs _ _)
  · exact Write.within_updateChildValues (.listedFlag _ _ _ (by simp))
  · exact (vc.dropOutNotification autoID time).within_schema

theorem dropOut_apart (vc : EventContentVC) (autoID time : String) :
    ∀ write ∈ vc.dropOut autoID time, write.Apart "user" := by
  simp only [dropOut, List.forall_mem_cons]
  refine ⟨Write.apart_setValue ?_ _ _, Write.apart_updateChildValues ?_ _ _ _,
    Write.apart_setValue ?_ _ _, by simp⟩ <;> decide

end EventContentVC

namespace AddEventVC

variable (vc : AddEventVC) (runtime : Runtime)

theorem uploadEventData_forall {P : Write → Prop} {newID : Nat → String} {time url uid : String}
    {autoID : String}
    (hremoval : ∀ event, vc.event = some event → ∀ round member,
      ∀ write ∈ (vc.removal event newID time round member).writes, P write)
    (hinvitation : ∀ round member,
      ∀ write ∈ (vc.invitation (vc.submittedID autoID) newID time round member).writes, P write)
    (hevent : P (.setValue ["event", vc.submittedID autoID]
      (vc.storedEvent runtime uid (vc.submittedID autoID) url).uploadedEventData)) :
    ∀ write ∈ (vc.uploadEventData runtime (some uid) autoID newID time url).writes, P write := by
  apply Outcome.andThen_forall
  · unfold removals
    cases hedit : vc.event with
    | none => simp
    | some event => exact Outcome.forEach_forall (hremoval event hedit) _ _
  · apply Outcome.andThen_forall
    · exact Outcome.forEach_forall hinvitation _ _
    · simpa using hevent

variable (newID : Nat → String) (time : String) (round : Nat) (member : GUser)

theorem removal_within (event : Event) :
    ∀ write ∈ (vc.removal event newID time round member).writes, write.Within Schema := by
  apply Outcome.andThen_forall
  · simp [Write.within_removeValue]
  · cases vc.user with
    | none => simp [Outcome.trap]
    | some user =>
      simp only [Outcome.issue_writes, List.forall_mem_cons]
      refine ⟨?_, ?_, by simp⟩
      · exact Write.within_updateChildValues (.listedFlag _ _ _ (by simp))
      · exact (removalNotification user event member (newID round) time).within_schema

theorem invitation_within (eventID : String) :
    ∀ write ∈ (vc.invitation eventID newID time round member).writes, write.Within Schema := by
  apply Outcome.andThen_forall
  · simp only [Outcome.issue_writes, List.forall_mem_cons]
    refine ⟨?_, ?_, by simp⟩
    · exact Write.within_scalar (.invitingMemberID _ _)
    · exact EventList.within_schema member.userID ⟨eventID, false, true⟩
  · cases vc.user with
    | none => simp [Outcome.trap]
    | some user =>
      simp only [Outcome.issue_writes, List.forall_mem_cons]
      exact ⟨(vc.invitationNotification user eventID member (newID round) time).within_schema,
        by simp⟩

variable {key : String} (hkey : key = "user" ∨ key = "event")

include hkey

theorem removal_apart (event : Event) :
    ∀ write ∈ (vc.removal event newID time round member).writes, write.Apart key := by
  apply Outcome.andThen_forall
  · simp only [Outcome.issue_writes, List.forall_mem_cons]
    refine ⟨Write.apart_removeValue ?_ _, Write.apart_removeValue ?_ _, by simp⟩ <;>
      rcases hkey with rfl | rfl <;> decide
  · cases vc.user with
    | none => simp [Outcome.trap]
    | some user =>
      simp only [Outcome.issue_writes, List.forall_mem_cons]
      refine ⟨Write.apart_updateChildValues ?_ _ _ _, Write.apart_setValue ?_ _ _, by simp⟩ <;>
        rcases hkey with rfl | rfl <;> decide

theorem invitation_apart (eventID : String) :
    ∀ write ∈ (vc.invitation eventID newID time round member).writes, write.Apart key := by
  apply Outcome.andThen_forall
  · simp only [Outcome.issue_writes, List.forall_mem_cons]
    refine ⟨Write.apart_setValue ?_ _ _, Write.apart_setValue ?_ _ _, by simp⟩ <;>
      rcases hkey with rfl | rfl <;> decide
  · cases vc.user with
    | none => simp [Outcome.trap]
    | some user =>
      simp only [Outcome.issue_writes, List.forall_mem_cons]
      refine ⟨Write.apart_setValue ?_ _ _, by simp⟩
      rcases hkey with rfl | rfl <;> decide

end AddEventVC

namespace World

def issued (ids : AutoId) (w : World) : Action → List Write
  | .saveUser user => [.setValue ["user", user.userID] user.uploadedUserData]
  | .agree screen =>
    match w.contentVCs[screen]? with
    | some vc => (vc.answerSelector.map vc.agree).getD []
    | none => []
  | .reject screen =>
    match w.contentVCs[screen]? with
    | some vc => (vc.answerSelector.map fun prompt => (vc.reject prompt).writes).getD []
    | none => []
  | .dropOut screen time =>
    match w.contentVCs[screen]? with
    | some vc => vc.dropOut (ids.key w.drawn) time
    | none => []
  | .uploaded screen runtime time url =>
    match w.addVCs[screen]? with
    | some vc => match vc.phase with
      | .uploading autoID => (vc.uploadEventData runtime (some vc.currentUser) autoID
          (fun n => ids.key (w.drawn + n)) time url).writes
      | _ => []
    | none => []
  | _ => []

variable {ids : AutoId} {w w' : World} {a : Action}

theorem Step.db_eq (h : Step ids w a w') : w'.db = w.db.applyAll (w.issued ids a) := by
  cases h with
  | saveUser _ => rfl
  | agree hvc hprompt => simp only [issued, hvc, hprompt]; rfl
  | reject hvc hprompt _ => simp only [issued, hvc, hprompt]; rfl
  | dropOut hvc _ _ => simp only [issued, hvc]; rfl
  | uploaded hvc hphase => simp only [issued, hvc, hphase]; rfl
  | _ => rfl

theorem Step.issued_within (h : Step ids w a w') :
    ∀ write ∈ w.issued ids a, write.Within Schema := by
  cases h with
  | saveUser huser => simpa [issued] using GUser.within_schema _ huser
  | agree hvc hprompt => simpa [issued, hvc, hprompt] using EventContentVC.agree_within _ _
  | reject hvc hprompt _ => simpa [issued, hvc, hprompt] using EventContentVC.reject_within _ _
  | dropOut hvc _ _ => simpa [issued, hvc] using EventContentVC.dropOut_within _ _ _
  | uploaded hvc hphase =>
    simp only [issued, hvc, hphase]
    apply AddEventVC.uploadEventData_forall
    · exact fun event _ round member => AddEventVC.removal_within _ _ _ round member event
    · exact fun round member => AddEventVC.invitation_within _ _ _ round member _
    · exact Event.within_schema (AddEventVC.storedEvent ..)
  | _ => simp [issued]

theorem Step.get_user (h : Step ids w a w') (ha : ∀ user, a ≠ .saveUser user) (rest : Path) :
    w'.db.get ("user" :: rest) = w.db.get ("user" :: rest) := by
  rw [h.db_eq]
  apply get_applyAll_of_apart
  cases h with
  | @saveUser user _ => exact absurd rfl (ha user)
  | agree hvc hprompt => simpa [issued, hvc, hprompt] using EventContentVC.agree_apart _ _
  | reject hvc hprompt _ =>
    simpa [issued, hvc, hprompt] using EventContentVC.reject_apart _ _ (.inl rfl)
  | dropOut hvc _ _ => simpa [issued, hvc] using EventContentVC.dropOut_apart _ _ _
  | uploaded hvc hphase =>
    simp only [issued, hvc, hphase]
    apply AddEventVC.uploadEventData_forall
    · exact fun event _ round member => AddEventVC.removal_apart _ _ _ round member (.inl rfl) event
    · exact fun round member => AddEventVC.invitation_apart _ _ _ round member (.inl rfl) _
    · exact Write.apart_setValue (by decide) _ _
  | _ => simp [issued]

/-- The database of a reachable state holds the app's records and nothing else. -/
theorem within_schema (h : Reachable (step ids) empty w) : w.db.Within Schema :=
  h.invariant (fun w => w.db.Within Schema) (Store.Within.empty Schema) fun _ _ _ hw hstep =>
    (Step.of_step ids hstep).db_eq ▸ hw.applyAll (Step.of_step ids hstep).issued_within

end World

end GetTogether
