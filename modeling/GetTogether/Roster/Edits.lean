import GetTogether.Roster.Tables
import Mathlib.Tactic.MkIffOfInductiveProp

/-! An operation cut off half way. Every single write makes one edit of the tables, so
an operation is a list of edits, and one that is cut off makes a prefix of them. -/
namespace GetTogether.Roster

variable {υ ε : Type}

@[simp] theorem Invitation.pending_isMember (invitation : Invitation ε) (isMember : Option Bool) :
    { invitation with isMember }.pending = invitation.pending := rfl

/-- Whoever counts as a member is one, and whoever is listed can still answer. -/
@[mk_iff] structure Tables.Settled (tables : Tables υ ε) (user : υ) (event : ε) : Prop where
  member : (tables.invitingEventList user event).joined = true → user ∈ tables.memberIDs event
  asked : (tables.invitingMemberList event user).isSome = true →
    (tables.invitingEventList user event).pending = true

def Tables.Consistent (tables : Tables υ ε) : Prop :=
  ∀ event user, tables.Settled user event

/-- What a single write does to the tables. -/
inductive Edit (υ ε : Type) where
  | keep
  | reply (user : υ) (event : ε)
  | leave (user : υ) (event : ε)
  | unlist (user : υ) (event : ε)
  | list (user : υ) (event : ε)
  | invite (user : υ) (event : ε)
  | members (event : ε) (written : List υ)
  deriving DecidableEq, Repr

def removalEdits (event : ε) (removed : List υ) : List (Edit υ ε) :=
  removed.flatMap fun user => [.keep, .keep, .leave user event, .keep]

def invitationEdits (event : ε) (invited : List υ) : List (Edit υ ε) :=
  invited.flatMap fun user => [.list user event, .invite user event, .keep]

variable [DecidableEq υ] [DecidableEq ε]

def Edit.apply (tables : Tables υ ε) : Edit υ ε → Tables υ ε
  | .keep => tables
  | .reply user event =>
    { tables with
      invitingEventList := tables.mapInvitation user event fun i => { i with isReply := some true } }
  | .leave user event =>
    { tables with
      invitingEventList :=
        tables.mapInvitation user event fun i => { i with isMember := some false } }
  | .unlist user event => { tables with invitingMemberList := tables.unlist user event }
  | .list user event =>
    { tables with
      invitingMemberList := fun e v =>
        if e = event ∧ v = user then some user else tables.invitingMemberList e v }
  | .invite user event =>
    { tables with
      invitingEventList :=
        tables.mapInvitation user event fun _ => ⟨some event, some false, some true⟩ }
  | .members event written =>
    { tables with memberIDs := Function.update tables.memberIDs event written }

def Tables.applyAll (tables : Tables υ ε) (edits : List (Edit υ ε)) : Tables υ ε :=
  edits.foldl Edit.apply tables

@[simp] theorem Tables.applyAll_nil (tables : Tables υ ε) : tables.applyAll [] = tables := rfl

@[simp] theorem Tables.applyAll_cons (tables : Tables υ ε) (edit : Edit υ ε)
    (edits : List (Edit υ ε)) :
    tables.applyAll (edit :: edits) = (edit.apply tables).applyAll edits := rfl

theorem Tables.applyAll_append (tables : Tables υ ε) (first second : List (Edit υ ε)) :
    tables.applyAll (first ++ second) = (tables.applyAll first).applyAll second :=
  List.foldl_append ..

/-- The edits of a change, one for each write, in the order of the writes. -/
def Change.edits : Change υ ε → List (Edit υ ε)
  | .keep => [.keep]
  | .accept user event held =>
    [.keep, .reply user event, .unlist user event, .members event (held ++ [user])]
  | .reject user event =>
    [.keep, .reply user event, .leave user event, .unlist user event, .keep]
  | .dropOut user event held =>
    [.members event (held.filter (· ≠ user)), .leave user event, .keep]
  | .submit event removed invited written =>
    removalEdits event removed ++ invitationEdits event invited ++
      (written.map (.members event)).toList

variable {tables : Tables υ ε}

theorem Tables.applyAll_removalEdits (event : ε) (removed : List υ) :
    tables.applyAll (removalEdits event removed) =
      { tables with
        invitingEventList := fun u e =>
          if e = event ∧ u ∈ removed then { tables.invitingEventList u e with isMember := some false }
          else tables.invitingEventList u e } := by
  induction removed generalizing tables with
  | nil => simp [removalEdits]
  | cons user rest ih =>
    have hstep : removalEdits event (user :: rest) =
        [.keep, .keep, .leave user event, .keep] ++ removalEdits event rest := rfl
    rw [hstep, Tables.applyAll_append, ih]
    ext1
    · rfl
    · funext u e
      by_cases he : e = event <;> by_cases hu : u = user <;> by_cases hrest : u ∈ rest <;>
        simp [Edit.apply, Tables.mapInvitation, he, hu, hrest]
    · rfl

theorem Tables.applyAll_invitationEdits (event : ε) (invited : List υ) :
    tables.applyAll (invitationEdits event invited) =
      { tables with
        invitingEventList := fun u e =>
          if e = event ∧ u ∈ invited then ⟨some event, some false, some true⟩
          else tables.invitingEventList u e
        invitingMemberList := fun e u =>
          if e = event ∧ u ∈ invited then some u else tables.invitingMemberList e u } := by
  induction invited generalizing tables with
  | nil => simp [invitationEdits]
  | cons user rest ih =>
    have hstep : invitationEdits event (user :: rest) =
        [.list user event, .invite user event, .keep] ++ invitationEdits event rest := rfl
    rw [hstep, Tables.applyAll_append, ih]
    ext1
    · rfl
    · funext u e
      by_cases he : e = event <;> by_cases hu : u = user <;> by_cases hrest : u ∈ rest <;>
        simp [Edit.apply, Tables.mapInvitation, he, hu, hrest]
    · funext e u
      by_cases he : e = event <;> by_cases hu : u = user <;> by_cases hrest : u ∈ rest <;>
        simp [Edit.apply, he, hu, hrest]

theorem Change.applyAll_edits (change : Change υ ε) :
    tables.applyAll change.edits = change.apply tables := by
  cases change with
  | keep => rfl
  | accept user event held => rfl
  | reject user event =>
    simp only [Change.edits, Tables.applyAll_cons, Tables.applyAll_nil, Edit.apply, Change.apply,
      Tables.reject]
    congr 1
    funext u e
    by_cases hat : u = user ∧ e = event <;> simp [Tables.mapInvitation, hat]
  | dropOut user event held => rfl
  | submit event removed invited written =>
    simp only [Change.edits, Tables.applyAll_append, Tables.applyAll_removalEdits,
      Tables.applyAll_invitationEdits, Change.apply]
    cases written <;> rfl

def Edit.event : Edit υ ε → Option ε
  | .keep => none
  | .reply _ event => some event
  | .leave _ event => some event
  | .unlist _ event => some event
  | .list _ event => some event
  | .invite _ event => some event
  | .members event _ => some event

theorem Edit.apply_of_ne (edit : Edit υ ε) (tables : Tables υ ε) {event : ε}
    (h : edit.event ≠ some event) :
    (edit.apply tables).memberIDs event = tables.memberIDs event ∧
      ∀ user, (edit.apply tables).invitingEventList user event =
        tables.invitingEventList user event := by
  cases edit with
  | keep => exact ⟨rfl, fun user => rfl⟩
  | reply u e =>
    have hne : event ≠ e := fun heq => h (congrArg some heq.symm)
    simp [Edit.apply, Tables.mapInvitation, hne]
  | leave u e =>
    have hne : event ≠ e := fun heq => h (congrArg some heq.symm)
    simp [Edit.apply, Tables.mapInvitation, hne]
  | unlist u e => exact ⟨rfl, fun user => rfl⟩
  | list u e => exact ⟨rfl, fun user => rfl⟩
  | invite u e =>
    have hne : event ≠ e := fun heq => h (congrArg some heq.symm)
    simp [Edit.apply, Tables.mapInvitation, hne]
  | members e written =>
    have hne : event ≠ e := fun heq => h (congrArg some heq.symm)
    simp [Edit.apply, hne]

theorem Edit.pending_apply (edit : Edit υ ε) {user : υ} {event : ε}
    (h : ((edit.apply tables).invitingEventList user event).pending = true) :
    (tables.invitingEventList user event).pending = true ∨ edit = .invite user event := by
  cases edit with
  | keep => exact .inl h
  | reply u e =>
    simp only [Edit.apply, Tables.mapInvitation] at h
    split at h
    · exact absurd h (by simp [Invitation.pending])
    · exact .inl h
  | leave u e =>
    simp only [Edit.apply, Tables.mapInvitation] at h
    split at h <;> exact .inl h
  | unlist u e => exact .inl h
  | list u e => exact .inl h
  | invite u e =>
    simp only [Edit.apply, Tables.mapInvitation] at h
    split at h
    · next hat => exact .inr (by rw [hat.1, hat.2])
    · exact .inl h
  | members e written => exact .inl h

omit [DecidableEq ε] in
theorem Change.mem_edits_submit {event : ε} {removed invited : List υ} {written : Option (List υ)}
    {edit : Edit υ ε} (h : edit ∈ (Change.submit event removed invited written).edits) :
    edit = .keep ∨ (∃ user, edit = .leave user event ∨ edit = .list user event) ∨
      (∃ user ∈ invited, edit = .invite user event) ∨ ∃ members, edit = .members event members := by
  simp only [edits, removalEdits, invitationEdits, List.mem_append, List.mem_flatMap, List.mem_cons,
    List.not_mem_nil, or_false, Option.mem_toList, Option.map_eq_some_iff] at h
  rcases h with (⟨user, -, h⟩ | ⟨user, huser, h⟩) | ⟨members, -, h⟩
  · rcases h with h | h | h | h
    · exact .inl h
    · exact .inl h
    · exact .inr (.inl ⟨user, .inl h⟩)
    · exact .inl h
  · rcases h with h | h | h
    · exact .inr (.inl ⟨user, .inr h⟩)
    · exact .inr (.inr (.inl ⟨user, huser, h⟩))
    · exact .inl h
  · exact .inr (.inr (.inr ⟨members, h.symm⟩))

/-- Every edit of a change is about the event of the change, and invites whom it invites. -/
theorem Change.mem_edits {change : Change υ ε} {edit : Edit υ ε} (h : edit ∈ change.edits) :
    (edit.event = none ∨ edit.event = change.event) ∧
      ∀ user event, edit = .invite user event → user ∈ change.invited event := by
  cases change with
  | submit event removed invited written =>
    rcases mem_edits_submit h with rfl | ⟨user, rfl | rfl⟩ | ⟨user, huser, rfl⟩ | ⟨members, rfl⟩
    · exact ⟨.inl rfl, nofun⟩
    · exact ⟨.inr rfl, nofun⟩
    · exact ⟨.inr rfl, nofun⟩
    · refine ⟨.inr rfl, ?_⟩
      rintro _ _ ⟨⟩
      simpa [Change.invited] using huser
    · exact ⟨.inr rfl, nofun⟩
  | keep =>
    obtain rfl := List.mem_singleton.mp h
    exact ⟨.inl rfl, nofun⟩
  | accept user event held =>
    simp only [edits, List.mem_cons, List.not_mem_nil, or_false] at h
    rcases h with rfl | rfl | rfl | rfl <;> simp [Edit.event, Change.event]
  | reject user event =>
    simp only [edits, List.mem_cons, List.not_mem_nil, or_false] at h
    rcases h with rfl | rfl | rfl | rfl | rfl <;> simp [Edit.event, Change.event]
  | dropOut user event held =>
    simp only [edits, List.mem_cons, List.not_mem_nil, or_false] at h
    rcases h with rfl | rfl | rfl <;> simp [Edit.event, Change.event]

theorem Change.applyAll_of_ne {change : Change υ ε} {edits : List (Edit υ ε)}
    (hedits : ∀ edit ∈ edits, edit ∈ change.edits) (tables : Tables υ ε) {event : ε}
    (h : change.event ≠ some event) :
    (tables.applyAll edits).memberIDs event = tables.memberIDs event ∧
      ∀ user, (tables.applyAll edits).invitingEventList user event =
        tables.invitingEventList user event := by
  induction edits generalizing tables with
  | nil => exact ⟨rfl, fun user => rfl⟩
  | cons edit rest ih =>
    have hother : edit.event ≠ some event := by
      rcases (mem_edits (hedits edit List.mem_cons_self)).1 with hnone | hsame
      · simp [hnone]
      · rwa [hsame]
    obtain ⟨hmembers, hinvitations⟩ := edit.apply_of_ne tables hother
    rw [Tables.applyAll_cons, ← hmembers]
    simp only [← hinvitations]
    exact ih (fun other hmem => hedits other (List.mem_cons_of_mem edit hmem)) _

theorem Change.pending_applyAll {change : Change υ ε} {edits : List (Edit υ ε)}
    (hedits : ∀ edit ∈ edits, edit ∈ change.edits) {user : υ} {event : ε}
    (h : ((tables.applyAll edits).invitingEventList user event).pending = true) :
    (tables.invitingEventList user event).pending = true ∨ user ∈ change.invited event := by
  induction edits generalizing tables with
  | nil => exact .inl h
  | cons edit rest ih =>
    rcases ih (fun other hmem => hedits other (List.mem_cons_of_mem edit hmem)) h with hmid | hnew
    · rcases edit.pending_apply hmid with hold | hinvite
      · exact .inl hold
      · exact .inr ((mem_edits (hedits edit List.mem_cons_self)).2 user event hinvite)
    · exact .inr hnew

theorem Change.apply_of_ne (change : Change υ ε) (tables : Tables υ ε) {event : ε}
    (h : change.event ≠ some event) :
    (change.apply tables).memberIDs event = tables.memberIDs event ∧
      ∀ user, (change.apply tables).invitingEventList user event =
        tables.invitingEventList user event := by
  rw [← applyAll_edits]
  exact applyAll_of_ne (fun _ hmem => hmem) tables h

theorem Change.pending_apply (change : Change υ ε) {user : υ} {event : ε}
    (h : ((change.apply tables).invitingEventList user event).pending = true) :
    (tables.invitingEventList user event).pending = true ∨ user ∈ change.invited event := by
  rw [← applyAll_edits] at h
  exact pending_applyAll (fun _ hmem => hmem) h

end GetTogether.Roster
