import GetTogether.AddEventVC
import GetTogether.Roster.Refinement

/-! What the completion of an image upload does to the membership tables: the
removal loop, the invitation loop and the write of the event, run to their end or
stopped at a trap. -/
namespace GetTogether.Roster

open Realtime

theorem storedEvent_written (vc : AddEventVC) (runtime : Runtime) (uid eventID url : String) :
    (((vc.storedEvent runtime uid eventID url).uploadedEventData.get ["memberIDs"]).bind
      Scalar.array?).getD [] = vc.finalMemberIDs runtime := by
  simp only [AddEventVC.storedEvent, Event.uploadedEventData]
  generalize vc.finalMemberIDs runtime = members
  cases members <;> simp [Scalar.array?]

section Submission

variable (vc : AddEventVC) (runtime : Runtime)

def removedIDs : List String :=
  if vc.isEdit then (vc.removedMembers runtime).map (·.userID) else []

def editedIDs : List String := (vc.editedMembers runtime).map (·.userID)

/-- What the completion of the upload does to the tables: without the organiser's
own record the first round of either loop stops it. -/
def submission (eventID : String) : Change String String :=
  match vc.user, removedIDs vc runtime, editedIDs vc runtime with
  | some _, removed, edited =>
    .submit eventID removed edited (some (vc.finalMemberIDs runtime))
  | none, _ :: _, _ => .keep
  | none, [], first :: _ => .submit eventID [] [first] none
  | none, [], [] => .submit eventID [] [] (some (vc.finalMemberIDs runtime))

theorem submission_invited {eventID e uid : String}
    (h : uid ∈ (submission vc runtime eventID).invited e) : uid ∈ editedIDs vc runtime := by
  unfold submission Change.invited at h
  split at h
  · next heq =>
    split at heq
    · cases heq
      split at h
      · exact h
      · exact absurd h List.not_mem_nil
    · cases heq
    · next hedited =>
      cases heq
      split at h
      · rw [hedited, List.mem_singleton.mp h]
        exact List.mem_cons_self
      · exact absurd h List.not_mem_nil
    · cases heq
      split at h <;> exact absurd h List.not_mem_nil
  · exact absurd h List.not_mem_nil

/-! Whatever the hash, equal ids have equal hashes: the sets never treat one user
as two, so membership in the results is limited by membership of the ids. -/

private theorem hash_mem {users : List GUser} {user : GUser}
    (h : user.userID ∈ users.map (·.userID)) : runtime.hash user ∈ users.map runtime.hash := by
  obtain ⟨other, hother, heq⟩ := List.mem_map.mp h
  exact List.mem_map.mpr ⟨other, hother, congrArg runtime.hashValue heq⟩

/-- The edited ids are those of `Set(members)` that neither a deleted nor an original
member hashes to. -/
theorem mem_editedIDs_iff {uid : String} :
    uid ∈ editedIDs vc runtime ↔ ∃ member ∈ KeyedSet.ofArray runtime.hash vc.members,
      runtime.hash member ∉ vc.deletedMembers.map runtime.hash ∧
      runtime.hash member ∉ vc.originalMemers.map runtime.hash ∧ member.userID = uid := by
  simp only [editedIDs, List.mem_map, AddEventVC.editedMembers, KeyedSet.Enumeration.mem_toArray,
    KeyedSet.mem_subtracting]
  simp only [← List.mem_map, KeyedSet.keys_ofArray, and_assoc]

theorem mem_editedMembers {user : GUser} (h : user ∈ vc.editedMembers runtime) :
    user ∈ vc.members ∧ user.userID ∉ vc.deletedMembers.map (·.userID) ∧
      user.userID ∉ vc.originalMemers.map (·.userID) := by
  rw [AddEventVC.editedMembers, KeyedSet.Enumeration.mem_toArray, KeyedSet.mem_subtracting,
    KeyedSet.mem_subtracting, KeyedSet.keys_ofArray, KeyedSet.keys_ofArray] at h
  obtain ⟨⟨hmember, hdeleted⟩, horiginal⟩ := h
  exact ⟨KeyedSet.mem_of_mem_ofArray _ hmember, fun h => hdeleted (hash_mem runtime h),
    fun h => horiginal (hash_mem runtime h)⟩

theorem mem_editedIDs {uid : String} (h : uid ∈ editedIDs vc runtime) :
    uid ∈ vc.members.map (·.userID) ∧ uid ∉ vc.deletedMembers.map (·.userID) ∧
      uid ∉ vc.originalMemers.map (·.userID) := by
  obtain ⟨user, huser, rfl⟩ := List.mem_map.mp h
  obtain ⟨hmember, hdeleted, horiginal⟩ := mem_editedMembers vc runtime huser
  exact ⟨List.mem_map_of_mem hmember, hdeleted, horiginal⟩

theorem editedIDs_nodup : (editedIDs vc runtime).Nodup := by
  have hkeys : ((vc.editedMembers runtime).map runtime.hash).Nodup := by
    rw [AddEventVC.editedMembers, ((runtime.users.perm _).map runtime.hash).nodup_iff]
    apply KeyedSet.nodup_subtracting
    apply KeyedSet.nodup_subtracting
    exact KeyedSet.nodup_ofArray runtime.hash vc.members
  exact KeyedSet.nodup_names runtime.hash_eq hkeys

theorem mem_removedMembers {user : GUser} (h : user ∈ vc.removedMembers runtime) :
    user ∈ vc.deletedMembers ∧ user.userID ∉ vc.members.map (·.userID) := by
  rw [AddEventVC.removedMembers, KeyedSet.Enumeration.mem_toArray, KeyedSet.mem_subtracting,
    KeyedSet.keys_ofArray] at h
  exact ⟨KeyedSet.mem_of_mem_ofArray _ h.1, fun hmember => h.2 (hash_mem runtime hmember)⟩

theorem mem_removedIDs {uid : String} (h : uid ∈ removedIDs vc runtime) :
    vc.isEdit = true ∧ uid ∈ vc.deletedMembers.map (·.userID) ∧
      uid ∉ vc.members.map (·.userID) := by
  unfold removedIDs at h
  split at h
  · next hedit =>
    obtain ⟨user, huser, rfl⟩ := List.mem_map.mp h
    obtain ⟨hdeleted, hmember⟩ := mem_removedMembers vc runtime huser
    exact ⟨hedit, List.mem_map_of_mem hdeleted, hmember⟩
  · exact absurd h List.not_mem_nil

/-- The removed ids are those of `Set(deletedMembers)` that no listed member hashes to. -/
theorem mem_removedIDs_iff {event : Event} (hevent : vc.event = some event) {uid : String} :
    uid ∈ removedIDs vc runtime ↔ ∃ member ∈ KeyedSet.ofArray runtime.hash vc.deletedMembers,
      runtime.hash member ∉ vc.members.map runtime.hash ∧ member.userID = uid := by
  simp only [removedIDs, AddEventVC.isEdit, hevent, Option.isSome_some, if_true, List.mem_map,
    AddEventVC.removedMembers, KeyedSet.Enumeration.mem_toArray, KeyedSet.mem_subtracting]
  simp only [← List.mem_map, KeyedSet.keys_ofArray, and_assoc]

theorem not_mem_removedIDs_of_mem_editedIDs {uid : String} (h : uid ∈ editedIDs vc runtime) :
    uid ∉ removedIDs vc runtime := fun hremoved =>
  (mem_removedIDs vc runtime hremoved).2.2 (mem_editedIDs vc runtime h).1

theorem removedIDs_of_event {event : Event} (h : vc.event = some event) :
    removedIDs vc runtime = (vc.removedMembers runtime).map (·.userID) := by
  simp [removedIDs, AddEventVC.isEdit, h]

theorem finalMemberIDs_of_new (h : vc.event = none) : vc.finalMemberIDs runtime = [""] := by
  simp [AddEventVC.finalMemberIDs, h]

theorem mem_finalMemberIDs {event : Event} (h : vc.event = some event) (uid : String) :
    uid ∈ vc.finalMemberIDs runtime ↔
      uid ∈ event.memberIDs ∧ uid ∉ removedIDs vc runtime := by
  rw [removedIDs_of_event vc runtime h]
  simp only [AddEventVC.finalMemberIDs, h]
  split
  · next hempty => simp [List.isEmpty_iff.mp hempty]
  · rw [KeyedSet.Enumeration.mem_toArray, KeyedSet.mem_subtracting_id, KeyedSet.mem_ofArray_id,
      KeyedSet.mem_ofArray_id]

theorem finalMemberIDs_nodup (h : ∀ event, vc.event = some event → event.memberIDs.Nodup) :
    (vc.finalMemberIDs runtime).Nodup := by
  unfold AddEventVC.finalMemberIDs
  split
  · simp
  · next event hevent =>
    split
    · exact h event hevent
    · rw [(runtime.strings.perm _).nodup_iff]
      exact (KeyedSet.nodup_ofArray_id event.memberIDs).sublist List.filter_sublist

theorem mem_of_mem_finalMemberIDs {uid : String} (h : uid ∈ vc.finalMemberIDs runtime) :
    uid = "" ∨ ∃ event, vc.event = some event ∧ uid ∈ event.memberIDs := by
  cases hevent : vc.event with
  | none =>
    rw [finalMemberIDs_of_new vc runtime hevent] at h
    exact .inl (List.mem_singleton.mp h)
  | some event => exact .inr ⟨event, rfl, ((mem_finalMemberIDs vc runtime hevent uid).mp h).1⟩

theorem submission_memberIDs (eventID e : String) (tables : Tables String String) :
    ((submission vc runtime eventID).apply tables).memberIDs e = tables.memberIDs e ∨
      (e = eventID ∧ ((submission vc runtime eventID).apply tables).memberIDs e =
        vc.finalMemberIDs runtime) := by
  have hwritten : ∀ removed invited, ((Change.submit eventID removed invited
      (some (vc.finalMemberIDs runtime))).apply tables).memberIDs e = tables.memberIDs e ∨
      (e = eventID ∧ ((Change.submit eventID removed invited
        (some (vc.finalMemberIDs runtime))).apply tables).memberIDs e =
          vc.finalMemberIDs runtime) := by
    intro removed invited
    by_cases he : e = eventID
    · exact .inr ⟨he, by simp [Change.apply, Tables.submit, he]⟩
    · exact .inl (by simp [Change.apply, Tables.submit, he])
  unfold submission
  split
  · exact hwritten _ _
  · exact .inl rfl
  · exact .inl rfl
  · exact hwritten _ _

variable (eventID : String) (newID : Nat → String) (time : String)

theorem removal_trapped {user : GUser} (huser : vc.user = some user) (event : Event)
    (round : Nat) (member : GUser) :
    (vc.removal event newID time round member).trapped = false := by
  simp [AddEventVC.removal, huser]

theorem invitation_trapped {user : GUser} (huser : vc.user = some user) (round : Nat)
    (member : GUser) : (vc.invitation eventID newID time round member).trapped = false := by
  simp [AddEventVC.invitation, huser]

theorem removals_trapped {user : GUser} (huser : vc.user = some user) :
    (vc.removals runtime newID time).trapped = false := by
  unfold AddEventVC.removals
  split
  · rfl
  · next event _ => exact Outcome.forEach_trapped (removal_trapped vc newID time huser event) 0 _

theorem invitations_trapped {user : GUser} (huser : vc.user = some user) :
    (vc.invitations runtime eventID newID time).trapped = false :=
  Outcome.forEach_trapped (invitation_trapped vc eventID newID time huser) _ _

theorem writtenAt_removals_none (query : Path)
    (hquery : ∀ event round member,
      writtenAt query (vc.removal event newID time round member).writes = none) :
    writtenAt query (vc.removals runtime newID time).writes = none := by
  unfold AddEventVC.removals
  split
  · rfl
  · next event _ => exact Outcome.writtenAt_forEach_none (hquery event) 0 _

theorem writtenAt_invitations_none (query : Path)
    (hquery : ∀ round member,
      writtenAt query (vc.invitation eventID newID time round member).writes = none) :
    writtenAt query (vc.invitations runtime eventID newID time).writes = none :=
  Outcome.writtenAt_forEach_none hquery _ _

theorem removals_make {user : GUser} (huser : vc.user = some user)
    (hedit : ∀ event, vc.event = some event → event.eventID = eventID) :
    List.Forall₂ Makes (vc.removals runtime newID time).writes
      (removalEdits eventID (removedIDs vc runtime)) := by
  unfold AddEventVC.removals removedIDs AddEventVC.isEdit
  cases hevent : vc.event with
  | none => exact .nil
  | some event =>
    obtain rfl := hedit event hevent
    simp only [Option.isSome_some, if_true, removalEdits, List.flatMap_map]
    apply Outcome.forEach_forall₂ (removal_trapped vc newID time huser event)
    intro round member
    simp only [AddEventVC.removal, huser, Outcome.issue_andThen, Outcome.issue_writes,
      List.cons_append, List.nil_append]
    refine .cons ?_ (.cons ?_ (.cons (makes_leave _ _) (.cons ?_ .nil)))
    · exact makes_keep (by simp [Write.Apart])
    · exact makes_keep (by simp [Write.Apart])
    · exact makes_keep (by simp [Write.Apart])

theorem invitations_make {user : GUser} (huser : vc.user = some user) :
    List.Forall₂ Makes (vc.invitations runtime eventID newID time).writes
      (invitationEdits eventID (editedIDs vc runtime)) := by
  unfold AddEventVC.invitations editedIDs invitationEdits
  rw [List.flatMap_map]
  apply Outcome.forEach_forall₂ (invitation_trapped vc eventID newID time huser)
  intro round member
  simp only [AddEventVC.invitation, huser, Outcome.issue_andThen, Outcome.issue_writes,
    List.cons_append, List.nil_append]
  refine .cons (makes_list _ _) (.cons (makes_invite _ _) (.cons ?_ .nil))
  exact makes_keep (by simp [Write.Apart])

theorem event_makes (uid url : String) :
    Makes (.setValue ["event", eventID] (vc.storedEvent runtime uid eventID url).uploadedEventData)
      (.members eventID (vc.finalMemberIDs runtime)) := by
  apply makes_members _ (storedEvent_written vc runtime uid eventID url)
  · simp
  · simp [Write.Apart]

def submissionWrites (uid eventID : String) (newID : Nat → String) (time url : String) :
    List Write :=
  (vc.removals runtime newID time).writes ++ (vc.invitations runtime eventID newID time).writes ++
    [.setValue ["event", eventID] (vc.storedEvent runtime uid eventID url).uploadedEventData]

/-- With the organiser's record loaded the completion runs to its end. -/
theorem uploadEventData_of_user {user : GUser} (huser : vc.user = some user)
    (uid autoID url : String) :
    vc.uploadEventData runtime (some uid) autoID newID time url =
      .issue (submissionWrites vc runtime uid (vc.submittedID autoID) newID time url) := by
  rw [AddEventVC.uploadEventData]
  simp only [Outcome.andThen_of_not_trapped (removals_trapped vc runtime newID time huser),
    Outcome.andThen_of_not_trapped
      (invitations_trapped vc runtime (vc.submittedID autoID) newID time huser)]
  simp [Outcome.issue, submissionWrites]

theorem uploaded_event {user : GUser} (huser : vc.user = some user) (uid url e field : String) :
    writtenAt ["event", e, field] (submissionWrites vc runtime uid eventID newID time url) =
      if e = eventID then
        some ((vc.storedEvent runtime uid eventID url).uploadedEventData.get [field])
      else none := by
  have hremovals := writtenAt_removals_none vc runtime newID time ["event", e, field]
    fun event round member => by simp [AddEventVC.removal, huser]
  have hinvitations := writtenAt_invitations_none vc runtime eventID newID time
    ["event", e, field] fun round member => by simp [AddEventVC.invitation, huser]
  rw [submissionWrites, writtenAt_append, writtenAt_append, hremovals, hinvitations]
  simp [eq_comm]

theorem submission_makes {user : GUser} (huser : vc.user = some user) (uid url : String)
    (hedit : ∀ event, vc.event = some event → event.eventID = eventID) :
    List.Forall₂ Makes (submissionWrites vc runtime uid eventID newID time url)
      (Change.submit eventID (removedIDs vc runtime) (editedIDs vc runtime)
        (some (vc.finalMemberIDs runtime))).edits := by
  apply List.rel_append
  · exact List.rel_append (removals_make vc runtime eventID newID time huser hedit)
      (invitations_make vc runtime eventID newID time huser)
  · exact .cons (event_makes vc runtime eventID uid url) .nil

/-! Without the organiser's record the first round of either loop is the last. -/

theorem removals_of_nil (h : removedIDs vc runtime = []) :
    vc.removals runtime newID time = .issue [] := by
  unfold AddEventVC.removals
  cases hevent : vc.event with
  | none => rfl
  | some event =>
    have hremoved : vc.removedMembers runtime = [] := by
      simpa [removedIDs, AddEventVC.isEdit, hevent] using h
    simp [hremoved, Outcome.forEach]

theorem removals_of_cons (huser : vc.user = none) {first : String} {rest : List String}
    (h : removedIDs vc runtime = first :: rest) :
    ∃ e uid, vc.removals runtime newID time =
      ⟨[.removeValue ["memberList", e, uid], .removeValue ["eventList", uid, e]], true⟩ := by
  unfold AddEventVC.removals
  cases hevent : vc.event with
  | none => simp [removedIDs, AddEventVC.isEdit, hevent] at h
  | some event =>
    cases hremoved : vc.removedMembers runtime with
    | nil => simp [removedIDs, AddEventVC.isEdit, hevent, hremoved] at h
    | cons member members =>
      refine ⟨event.eventID, member.userID, ?_⟩
      simp [Outcome.forEach, AddEventVC.removal, huser, Outcome.trap, Outcome.andThen]

theorem invitations_of_nil (h : editedIDs vc runtime = []) :
    vc.invitations runtime eventID newID time = .issue [] := by
  have hedited : vc.editedMembers runtime = [] := by simpa [editedIDs] using h
  simp [AddEventVC.invitations, hedited, Outcome.forEach]

theorem invitations_of_cons (huser : vc.user = none) {first : String} {rest : List String}
    (h : editedIDs vc runtime = first :: rest) :
    vc.invitations runtime eventID newID time =
      ⟨[.setValue ["invitingMemberList", eventID, first, "invitingMemberID"]
          (.scalar (.string first)),
        .setValue ["invitingEventList", first, eventID]
          (EventList.uploadedEventListData ⟨eventID, false, true⟩)], true⟩ := by
  obtain ⟨member, members, hedited, rfl, -⟩ := List.map_eq_cons_iff.mp h
  simp [AddEventVC.invitations, hedited, Outcome.forEach, AddEventVC.invitation, huser,
    Outcome.trap, Outcome.andThen]

/-- The completion of the upload refines `submission`, also when it traps. -/
theorem tables_uploadEventData (db : Store) (uid autoID url : String) :
    tables (db.applyAll (vc.uploadEventData runtime (some uid) autoID newID time url).writes) =
      (submission vc runtime (vc.submittedID autoID)).apply (tables db) := by
  cases huser : vc.user with
  | some user =>
    rw [uploadEventData_of_user vc runtime newID time huser, Outcome.issue_writes,
      tables_of_makes (submission_makes vc runtime _ newID time huser uid url
        fun event hevent => by simp [AddEventVC.submittedID, hevent]), Change.applyAll_edits]
    simp only [submission, huser]
  | none =>
    cases hremoved : removedIDs vc runtime with
    | cons first rest =>
      obtain ⟨e, v, hloop⟩ := removals_of_cons vc runtime newID time huser hremoved
      simp only [submission, huser, hremoved, AddEventVC.uploadEventData, hloop, Outcome.andThen,
        if_true]
      have hmakes : List.Forall₂ Makes [.removeValue ["memberList", e, v],
          .removeValue ["eventList", v, e]] [.keep, .keep] :=
        .cons (makes_keep (by simp [Write.Apart])) (.cons (makes_keep (by simp [Write.Apart])) .nil)
      exact tables_of_makes hmakes db
    | nil =>
      have hloop := removals_of_nil vc runtime newID time hremoved
      cases hedited : editedIDs vc runtime with
      | cons first rest =>
        have hinvite :=
          invitations_of_cons vc runtime (vc.submittedID autoID) newID time huser hedited
        simp only [submission, huser, hremoved, hedited, AddEventVC.uploadEventData, hloop,
          hinvite, Outcome.andThen, if_true, ← Change.applyAll_edits]
        exact tables_of_makes (.cons (makes_list _ _) (.cons (makes_invite _ _) .nil)) db
      | nil =>
        have hinvite := invitations_of_nil vc runtime (vc.submittedID autoID) newID time hedited
        simp only [submission, huser, hremoved, hedited, AddEventVC.uploadEventData, hloop,
          hinvite, Outcome.issue_andThen, Outcome.issue_writes, List.nil_append,
          ← Change.applyAll_edits]
        exact tables_of_makes (.cons (event_makes vc runtime _ uid url) .nil) db

end Submission

end GetTogether.Roster
