import Mathlib.Logic.Function.Basic

/-! Who takes part in which event, apart from how it is stored: the array each
event keeps, the invitation each user keeps, and the list of those still to be
asked. Users and events are any types with decidable equality. -/
namespace GetTogether.Roster

variable {υ ε : Type}

/-- One user's invitation to one event; each field may be missing. -/
@[ext] structure Invitation (ε : Type) where
  eventID : Option ε
  isReply : Option Bool
  isMember : Option Bool
  deriving DecidableEq, Repr

namespace Invitation

def exists? (invitation : Invitation ε) : Bool :=
  invitation.eventID.isSome || invitation.isReply.isSome || invitation.isMember.isSome

def full (invitation : Invitation ε) : Bool :=
  invitation.eventID.isSome && invitation.isReply.isSome && invitation.isMember.isSome

def pending (invitation : Invitation ε) : Bool := invitation.isReply = some false

/-- The user answered and counts as a member. -/
def joined (invitation : Invitation ε) : Bool :=
  invitation.isReply = some true && invitation.isMember = some true

end Invitation

@[ext] structure Tables (υ ε : Type) where
  memberIDs : ε → List υ
  invitingEventList : υ → ε → Invitation ε
  invitingMemberList : ε → υ → Option υ

/-- What one operation does to the tables. An array is written from the copy the
operation holds, not from the array that is stored. -/
inductive Change (υ ε : Type) where
  | keep
  | accept (user : υ) (event : ε) (held : List υ)
  | reject (user : υ) (event : ε)
  | dropOut (user : υ) (event : ε) (held : List υ)
  | submit (event : ε) (removed invited : List υ) (written : Option (List υ))
  deriving DecidableEq, Repr

def Change.invited [DecidableEq ε] (event : ε) : Change υ ε → List υ
  | .submit e _ invited _ => if e = event then invited else []
  | _ => []

variable [DecidableEq υ] [DecidableEq ε]

namespace Tables

def mapInvitation (tables : Tables υ ε) (user : υ) (event : ε)
    (f : Invitation ε → Invitation ε) : υ → ε → Invitation ε := fun v e =>
  if v = user ∧ e = event then f (tables.invitingEventList v e) else tables.invitingEventList v e

/-- The user is no longer listed among those to be asked. -/
def unlist (tables : Tables υ ε) (user : υ) (event : ε) : ε → υ → Option υ := fun e v =>
  if e = event ∧ v = user then none else tables.invitingMemberList e v

def accept (tables : Tables υ ε) (user : υ) (event : ε) (held : List υ) : Tables υ ε where
  memberIDs := Function.update tables.memberIDs event (held ++ [user])
  invitingEventList := tables.mapInvitation user event fun i => { i with isReply := some true }
  invitingMemberList := tables.unlist user event

def reject (tables : Tables υ ε) (user : υ) (event : ε) : Tables υ ε where
  memberIDs := tables.memberIDs
  invitingEventList := tables.mapInvitation user event fun i =>
    { i with isReply := some true, isMember := some false }
  invitingMemberList := tables.unlist user event

def dropOut (tables : Tables υ ε) (user : υ) (event : ε) (held : List υ) : Tables υ ε where
  memberIDs := Function.update tables.memberIDs event (held.filter (· ≠ user))
  invitingEventList := tables.mapInvitation user event fun i => { i with isMember := some false }
  invitingMemberList := tables.invitingMemberList

/-- Removed users only lose `isMember`; invited users get a new invitation. -/
def submit (tables : Tables υ ε) (event : ε) (removed invited : List υ)
    (written : Option (List υ)) : Tables υ ε where
  memberIDs := match written with
    | some members => Function.update tables.memberIDs event members
    | none => tables.memberIDs
  invitingEventList := fun v e =>
    if e = event ∧ v ∈ invited then ⟨some event, some false, some true⟩
    else if e = event ∧ v ∈ removed then { tables.invitingEventList v e with isMember := some false }
    else tables.invitingEventList v e
  invitingMemberList := fun e v =>
    if e = event ∧ v ∈ invited then some v else tables.invitingMemberList e v

end Tables

def Change.apply (tables : Tables υ ε) : Change υ ε → Tables υ ε
  | .keep => tables
  | .accept user event held => tables.accept user event held
  | .reject user event => tables.reject user event
  | .dropOut user event held => tables.dropOut user event held
  | .submit event removed invited written => tables.submit event removed invited written

def Change.event : Change υ ε → Option ε
  | .keep => none
  | .accept _ event _ => some event
  | .reject _ event => some event
  | .dropOut _ event _ => some event
  | .submit event _ _ _ => some event

end GetTogether.Roster
