import GetTogether.Roster.Tables

/-! What a change does to the invitations: to the two indexes of pending ones, and
to the completeness of each. -/
namespace GetTogether.Roster

variable {υ ε : Type} {tables : Tables υ ε}

def Tables.Mirrored (tables : Tables υ ε) : Prop :=
  ∀ event user, (tables.invitingMemberList event user).isSome = true ↔
    (tables.invitingEventList user event).pending = true

def Tables.Recorded (tables : Tables υ ε) (user : υ) (event : ε) : Prop :=
  (tables.invitingEventList user event).exists? = true

def Tables.Readable (tables : Tables υ ε) : Prop :=
  ∀ user event, tables.Recorded user event → (tables.invitingEventList user event).full = true

/-- The change sets single fields of this user's invitation to this event. -/
def Change.Patches (user : υ) (event : ε) : Change υ ε → Prop
  | .keep => False
  | .accept u e _ => user = u ∧ event = e
  | .reject u e => user = u ∧ event = e
  | .dropOut u e _ => user = u ∧ event = e
  | .submit e removed invited _ => event = e ∧ user ∈ removed ∧ user ∉ invited

structure Invitation.Patched (before after : Invitation ε) : Prop where
  eventID : after.eventID = before.eventID
  isReply : after.isReply = before.isReply ∨ after.isReply = some true
  isMember : after.isMember = before.isMember ∨ after.isMember = some false
  recorded : after.exists? = true

theorem Invitation.Patched.full {before after : Invitation ε} (h : before.Patched after)
    (hfull : before.full = true) : after.full = true := by
  simp only [Invitation.full, Bool.and_eq_true] at hfull ⊢
  obtain ⟨⟨heventID, hisReply⟩, hisMember⟩ := hfull
  refine ⟨⟨h.eventID ▸ heventID, ?_⟩, ?_⟩
  · rcases h.isReply with heq | heq <;> simp [heq, hisReply]
  · rcases h.isMember with heq | heq <;> simp [heq, hisMember]

variable [DecidableEq υ] [DecidableEq ε]

theorem Change.mirrored (change : Change υ ε) (h : tables.Mirrored) :
    (change.apply tables).Mirrored := by
  intro e u
  have hold := h e u
  cases change with
  | keep => exact hold
  | accept user event held =>
    by_cases hat : u = user ∧ e = event
    · simp [Change.apply, Tables.accept, Tables.unlist, Tables.mapInvitation, hat,
        Invitation.pending]
    · have hat' : ¬(e = event ∧ u = user) := fun hs => hat hs.symm
      simpa [Change.apply, Tables.accept, Tables.unlist, Tables.mapInvitation, hat, hat'] using hold
  | reject user event =>
    by_cases hat : u = user ∧ e = event
    · simp [Change.apply, Tables.reject, Tables.unlist, Tables.mapInvitation, hat,
        Invitation.pending]
    · have hat' : ¬(e = event ∧ u = user) := fun hs => hat hs.symm
      simpa [Change.apply, Tables.reject, Tables.unlist, Tables.mapInvitation, hat, hat'] using hold
  | dropOut user event held =>
    -- Dropping out writes `isMember` only.
    simp only [Change.apply, Tables.dropOut, Tables.mapInvitation]
    split <;> exact hold
  | submit event removed invited written =>
    simp only [Change.apply, Tables.submit]
    split
    · simp [Invitation.pending]
    · split <;> exact hold

/-- What a change does to one invitation: nothing, a patch, or a new one. -/
theorem Change.invitation_cases (change : Change υ ε) (tables : Tables υ ε) (user : υ)
    (event : ε) :
    ((change.apply tables).invitingEventList user event = tables.invitingEventList user event ∧
      ¬change.Patches user event) ∨
    ((tables.invitingEventList user event).Patched
      ((change.apply tables).invitingEventList user event) ∧ change.Patches user event) ∨
    ((change.apply tables).invitingEventList user event = ⟨some event, some false, some true⟩ ∧
      ¬change.Patches user event) := by
  cases change with
  | keep => exact .inl ⟨rfl, nofun⟩
  | accept u e held =>
    simp only [Change.apply, Tables.accept, Tables.mapInvitation, Change.Patches]
    split
    · next hat => exact .inr (.inl ⟨⟨rfl, .inr rfl, .inl rfl, by simp [Invitation.exists?]⟩, hat⟩)
    · next hat => exact .inl ⟨rfl, hat⟩
  | reject u e =>
    simp only [Change.apply, Tables.reject, Tables.mapInvitation, Change.Patches]
    split
    · next hat => exact .inr (.inl ⟨⟨rfl, .inr rfl, .inr rfl, by simp [Invitation.exists?]⟩, hat⟩)
    · next hat => exact .inl ⟨rfl, hat⟩
  | dropOut u e held =>
    simp only [Change.apply, Tables.dropOut, Tables.mapInvitation, Change.Patches]
    split
    · next hat => exact .inr (.inl ⟨⟨rfl, .inl rfl, .inr rfl, by simp [Invitation.exists?]⟩, hat⟩)
    · next hat => exact .inl ⟨rfl, hat⟩
  | submit e removed invited written =>
    simp only [Change.apply, Tables.submit, Change.Patches]
    split
    · next hnew => exact .inr (.inr ⟨by rw [hnew.1], fun h => h.2.2 hnew.2⟩)
    · next hnew =>
      split
      · next hgone =>
        exact .inr (.inl ⟨⟨rfl, .inl rfl, .inr rfl, by simp [Invitation.exists?]⟩,
          hgone.1, hgone.2, fun h => hnew ⟨hgone.1, h⟩⟩)
      · next hgone => exact .inl ⟨rfl, fun h => hgone ⟨h.1, h.2.1⟩⟩

theorem Change.recorded (change : Change υ ε) {user : υ} {event : ε}
    (h : tables.Recorded user event) : (change.apply tables).Recorded user event := by
  unfold Tables.Recorded at h ⊢
  rcases change.invitation_cases tables user event with ⟨heq, -⟩ | ⟨hp, -⟩ | ⟨heq, -⟩
  · rwa [heq]
  · exact hp.recorded
  · rw [heq]
    rfl

/-- Complete invitations stay complete exactly when every patched one was there. -/
theorem Change.readable_iff (change : Change υ ε) (h : tables.Readable) :
    (change.apply tables).Readable ↔
      ∀ user event, change.Patches user event → tables.Recorded user event := by
  constructor
  · intro hafter user event hpatch
    rcases change.invitation_cases tables user event with
      ⟨-, hno⟩ | ⟨hp, -⟩ | ⟨-, hno⟩
    · exact absurd hpatch hno
    · have hfull := hafter user event hp.recorded
      simp only [Invitation.full, Bool.and_eq_true] at hfull
      have hkey : (tables.invitingEventList user event).eventID.isSome = true :=
        hp.eventID ▸ hfull.1.1
      simp [Tables.Recorded, Invitation.exists?, hkey]
    · exact absurd hpatch hno
  · intro hpatches user event hrecorded
    rcases change.invitation_cases tables user event with
      ⟨heq, -⟩ | ⟨hp, hpatch⟩ | ⟨heq, -⟩
    · rw [heq]
      apply h user event
      rwa [Tables.Recorded, heq] at hrecorded
    · exact hp.full (h user event (hpatches user event hpatch))
    · rw [heq]
      rfl

end GetTogether.Roster
