import GetTogether.Roster.Tables

/-! When the member arrays and the invitations tell the same story about who is a
member, as long as every change works on the stored array. -/
namespace GetTogether.Roster

variable {υ ε : Type} {tables : Tables υ ε} {real : υ → Prop}

theorem Invitation.joined_iff {invitation : Invitation ε} : invitation.joined = true ↔
    invitation.isReply = some true ∧ invitation.isMember = some true := by
  simp [Invitation.joined]

/-- The arrays name the real users whose invitations say so, and no others. -/
def Tables.Agree (tables : Tables υ ε) (real : υ → Prop) : Prop :=
  ∀ event user, real user →
    (user ∈ tables.memberIDs event ↔ (tables.invitingEventList user event).joined = true)

variable [DecidableEq υ] [DecidableEq ε] (h : tables.Agree real)

include h

/-- Accepting writes the array and `isReply`; it keeps them in step exactly when the
invitation already says member. -/
theorem Tables.agree_accept_iff (user : υ) (event : ε) (hreal : real user) :
    (tables.accept user event (tables.memberIDs event)).Agree real ↔
      (tables.invitingEventList user event).isMember = some true := by
  constructor
  · intro hafter
    have hjoined := (hafter event user hreal).mp (by simp [Tables.accept])
    simpa [Tables.accept, Tables.mapInvitation, Invitation.joined_iff] using hjoined
  · intro hmember e u hu
    have hold := h e u hu
    by_cases he : e = event
    · subst he
      by_cases huser : u = user
      · subst huser
        simp [Tables.accept, Tables.mapInvitation, Invitation.joined_iff, hmember]
      · simp [Tables.accept, Tables.mapInvitation, huser, hold]
    · simp [Tables.accept, Tables.mapInvitation, he, hold]

theorem Tables.agree_reject (user : υ) (event : ε)
    (hpending : (tables.invitingEventList user event).pending = true) :
    (tables.reject user event).Agree real := by
  intro e u hu
  have hold := h e u hu
  by_cases hat : u = user ∧ e = event
  · obtain ⟨rfl, rfl⟩ := hat
    have hreply : (tables.invitingEventList u e).isReply = some false := by
      simpa [Invitation.pending] using hpending
    simp only [Invitation.joined_iff, hreply] at hold
    simpa [Tables.reject, Tables.mapInvitation, Invitation.joined_iff] using hold
  · simpa [Tables.reject, Tables.mapInvitation, hat] using hold

theorem Tables.agree_dropOut (user : υ) (event : ε) :
    (tables.dropOut user event (tables.memberIDs event)).Agree real := by
  intro e u hu
  have hold := h e u hu
  by_cases he : e = event
  · subst he
    by_cases huser : u = user
    · subst huser
      simp [Tables.dropOut, Tables.mapInvitation, Invitation.joined_iff]
    · simp [Tables.dropOut, Tables.mapInvitation, huser, hold]
  · simp [Tables.dropOut, Tables.mapInvitation, he, hold]

/-- An edit keeps them in step when it takes out whom it marks and invites no member. -/
theorem Tables.agree_submit (event : ε) (removed invited written : List υ)
    (hwritten : ∀ user, real user →
      (user ∈ written ↔ user ∈ tables.memberIDs event ∧ user ∉ removed))
    (hinvited : ∀ user ∈ invited, real user → user ∉ tables.memberIDs event) :
    (tables.submit event removed invited (some written)).Agree real := by
  intro e u hu
  have hold := h e u hu
  by_cases he : e = event
  · subst he
    by_cases hnew : u ∈ invited
    · simp [Tables.submit, hnew, Invitation.joined_iff, hwritten u hu, hinvited u hnew hu]
    · by_cases hgone : u ∈ removed
      · simp [Tables.submit, hnew, hgone, Invitation.joined_iff, hwritten u hu]
      · simp [Tables.submit, hnew, hgone, hwritten u hu, hold]
  · simp [Tables.submit, he, hold]

end GetTogether.Roster
