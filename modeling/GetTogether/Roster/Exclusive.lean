import GetTogether.Roster.Edits
import Mathlib.Data.List.Nodup

/-! Members and pending invitees kept apart. A change rewrites one array from the copy it
holds, so only the event it is about is in question, and there the answer is read off the
copy and the invitations it finds. -/
namespace GetTogether.Roster

variable {υ ε : Type} {tables : Tables υ ε}

/-- No member is still to be asked, and no one is a member twice. -/
structure Tables.Exclusive (tables : Tables υ ε) : Prop where
  answered : ∀ event, ∀ user ∈ tables.memberIDs event,
    (tables.invitingEventList user event).pending = false
  nodup : ∀ event, (tables.memberIDs event).Nodup

variable [DecidableEq υ] [DecidableEq ε]

/-- Whoever is invited is asked; whoever is removed is asked if they were before. -/
theorem Tables.pending_submit (tables : Tables υ ε) (event : ε) (removed invited : List υ)
    (written : Option (List υ)) (user : υ) :
    ((tables.submit event removed invited written).invitingEventList user event).pending =
      (decide (user ∈ invited) || (tables.invitingEventList user event).pending) := by
  by_cases hnew : user ∈ invited
  · simp [submit, hnew, Invitation.pending]
  · by_cases hgone : user ∈ removed <;> simp [submit, hnew, hgone]

section Change

variable (h : tables.Exclusive)

include h

/-- A change leaves the other events alone. -/
theorem Change.exclusive_iff (change : Change υ ε) : (change.apply tables).Exclusive ↔
    ∀ event, change.event = some event →
      (∀ user ∈ (change.apply tables).memberIDs event,
        ((change.apply tables).invitingEventList user event).pending = false) ∧
      ((change.apply tables).memberIDs event).Nodup := by
  constructor
  · exact fun hafter event _ => ⟨hafter.answered event, hafter.nodup event⟩
  · intro hat
    constructor
    · intro event user hmember
      by_cases hevent : change.event = some event
      · exact (hat event hevent).1 user hmember
      · obtain ⟨hmembers, hinvitations⟩ := change.apply_of_ne tables hevent
        rw [hinvitations]
        exact h.answered event user (hmembers ▸ hmember)
    · intro event
      by_cases hevent : change.event = some event
      · exact (hat event hevent).2
      · rw [(change.apply_of_ne tables hevent).1]
        exact h.nodup event

theorem Tables.exclusive_accept_iff (user : υ) (event : ε) {held : List υ} (hheld : held.Nodup) :
    (tables.accept user event held).Exclusive ↔ user ∉ held ∧
      ∀ u ∈ held, (tables.invitingEventList u event).pending = false := by
  have hiff := Change.exclusive_iff h (.accept user event held)
  simp only [Change.apply, Change.event, Option.some.injEq, forall_eq'] at hiff
  have happend : (held ++ [user]).Nodup ↔ user ∉ held := by
    rw [← List.concat_eq_append, List.nodup_concat]
    simp [hheld]
  rw [hiff]
  simp only [accept, mapInvitation, Function.update_self, List.mem_append, List.mem_singleton,
    and_true, happend]
  constructor
  · rintro ⟨hanswered, hout⟩
    refine ⟨hout, fun u hu => ?_⟩
    have hne : u ≠ user := fun heq => hout (heq ▸ hu)
    simpa [hne] using hanswered u (.inl hu)
  · rintro ⟨hout, hanswered⟩
    refine ⟨fun u hu => ?_, hout⟩
    split
    · rfl
    · next hne => exact hanswered u (hu.resolve_right hne)

theorem Tables.exclusive_reject (user : υ) (event : ε) :
    (tables.reject user event).Exclusive := by
  refine ⟨fun e u hmember => ?_, h.nodup⟩
  have hold := h.answered e u hmember
  simp only [reject, mapInvitation]
  split
  · rfl
  · exact hold

theorem Tables.exclusive_dropOut_iff (user : υ) (event : ε) {held : List υ} (hheld : held.Nodup) :
    (tables.dropOut user event held).Exclusive ↔
      ∀ u ∈ held, u ≠ user → (tables.invitingEventList u event).pending = false := by
  have hiff := Change.exclusive_iff h (.dropOut user event held)
  simp only [Change.apply, Change.event, Option.some.injEq, forall_eq'] at hiff
  have hfilter : (held.filter (· ≠ user)).Nodup := hheld.filter _
  rw [hiff]
  simp only [dropOut, mapInvitation, Function.update_self, hfilter, List.mem_filter,
    decide_eq_true_eq, and_true]
  constructor
  · intro hafter u hu hne
    simpa [hne] using hafter u ⟨hu, hne⟩
  · intro hanswered u hu
    rw [if_neg hu.2]
    exact hanswered u hu.1 hu.2

theorem Tables.exclusive_submit_iff (event : ε) (removed invited : List υ)
    {written : Option (List υ)} (hwritten : ∀ members ∈ written, members.Nodup) :
    (tables.submit event removed invited written).Exclusive ↔
      ∀ u ∈ written.getD (tables.memberIDs event),
        u ∉ invited ∧ (tables.invitingEventList u event).pending = false := by
  have hiff := Change.exclusive_iff h (.submit event removed invited written)
  simp only [Change.apply, Change.event, Option.some.injEq, forall_eq'] at hiff
  have hmembers : (tables.submit event removed invited written).memberIDs event =
      written.getD (tables.memberIDs event) := by
    cases written <;> simp [submit]
  have hnodup : (written.getD (tables.memberIDs event)).Nodup := by
    cases written with
    | none => exact h.nodup event
    | some members => exact hwritten members rfl
  rw [hiff, hmembers]
  simp only [pending_submit, Bool.or_eq_false_iff, decide_eq_false_iff_not, hnodup, and_true]

end Change

end GetTogether.Roster
