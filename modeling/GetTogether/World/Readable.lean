import GetTogether.Roster.Invitations
import GetTogether.World.Copies

/-! Whether every invitation record is complete. Records are created whole and
patched by single fields; a patch of a missing record leaves a partial one, which
no event screen of that user survives. -/
namespace GetTogether

open Realtime Roster

namespace World

variable {ids : AutoId} {w w' : World} {a : Action}

theorem contains_iff_recorded {db : Store} (hdb : db.Within Schema) (uid eventID : String) :
    db.contains ["invitingEventList", uid, eventID] = true ↔ (tables db).Recorded uid eventID := by
  rw [Store.contains_iff, Tables.Recorded]
  simp only [Invitation.exists?, tables, Bool.or_eq_true, Option.isSome_iff_exists]
  constructor
  · rintro ⟨rest, value, hget⟩
    rcases Schema.listed_path (hdb _ _ hget) with ⟨rfl, rfl⟩ | ⟨flag, rfl | rfl, rfl⟩
    · exact .inl (.inl ⟨_, Store.string?_eq_some.mpr hget⟩)
    · exact .inl (.inr ⟨_, Store.bool?_eq_some.mpr hget⟩)
    · exact .inr ⟨_, Store.bool?_eq_some.mpr hget⟩
  · intro h
    rcases h with (⟨value, h⟩ | ⟨value, h⟩) | ⟨value, h⟩
    · exact ⟨["eventID"], _, Store.string?_eq_some.mp h⟩
    · exact ⟨["isReply"], _, Store.bool?_eq_some.mp h⟩
    · exact ⟨["isMember"], _, Store.bool?_eq_some.mp h⟩

/-- Whoever is prompted, or is a member in the database or in a copy, has a record. -/
structure Enrolled (w : World) : Prop where
  prompts : ∀ vc ∈ w.contentVCs,
    (vc.answerSelector.isSome = true → (tables w.db).Recorded vc.currentUser vc.event.eventID) ∧
    ∀ list ∈ vc.userFetches, (tables w.db).Recorded vc.currentUser list.eventID
  held : ∀ eventID memberIDs, w.Held eventID memberIDs → ∀ uid ∈ memberIDs, uid ≠ "" →
    (tables w.db).Recorded uid eventID
  stored : ∀ eventID, ∀ uid ∈ (tables w.db).memberIDs eventID, uid ≠ "" →
    (tables w.db).Recorded uid eventID

theorem Enrolled.empty : Enrolled empty where
  prompts vc hvc := absurd hvc List.not_mem_nil
  held eventID memberIDs h := by
    rcases h with ⟨vc, hvc, -⟩ | ⟨vc, hvc, -⟩ <;> exact absurd hvc List.not_mem_nil
  stored eventID uid h := by simp [tables, World.empty, Store.array?] at h

theorem Enrolled.step (henr : Enrolled w) (hw : w.db.Within Schema) (h : Step ids w a w') :
    Enrolled w' := by
  have hkeep : ∀ {uid eventID}, (tables w.db).Recorded uid eventID →
      (tables w'.db).Recorded uid eventID := fun hrecorded =>
    h.tables_eq ▸ Change.recorded (w.change a) hrecorded
  have hmembers := h.forall_member hw henr.held henr.stored (fun _ _ => hkeep)
    (fun vc hvc hprompt _ => hkeep ((henr.prompts vc hvc).1 hprompt))
  refine ⟨?_, hmembers.2, hmembers.1⟩
  · refine h.forall_content henr.prompts ?_ ?_ ?_ ?_
    · exact fun vc hvc => ⟨fun hprompt => hkeep (hvc.1 hprompt),
        fun list hlist => hkeep (hvc.2 list hlist)⟩
    · intro uid eventID notificationID vc hopen _
      obtain ⟨event, notification, -, rfl⟩ := opened_eq_some hopen
      exact ⟨fun hprompt => absurd hprompt (by simp), fun list hlist =>
        absurd hlist List.not_mem_nil⟩
    · intro vc vc' hvc hcall
      rw [hcall.currentUser_eq, hcall.event_eq]
      constructor
      · intro hprompt
        apply hkeep
        rcases hcall.answerSelector_isSome hprompt with hold | ⟨list, hlist, heq, -⟩
        · exact hvc.1 hold
        · exact heq ▸ hvc.2 list hlist
      · intro list hlist
        apply hkeep
        rcases hcall.mem_userFetches hlist with hold | ⟨key, hread⟩
        · exact hvc.2 list hold
        · rw [EventList.eventID_of_read hw hread, ← contains_iff_recorded hw, Store.contains_iff]
          exact ⟨["eventID"], _, (EventList.read_eq_some.mp hread).1⟩
    · intro screen vc _ _ hvc
      exact ⟨fun hprompt => absurd hprompt (by simp [EventContentVC.agreed]), fun list hlist =>
        hkeep (hvc.2 list hlist)⟩

/-- Every record has its three fields, and no user's event screen traps on a cast. -/
def RecordsReadable (w : World) : Prop :=
  (∀ uid eventID, w.db.contains ["invitingEventList", uid, eventID] = true →
    (w.db.string? ["invitingEventList", uid, eventID, "eventID"]).isSome = true ∧
    (w.db.bool? ["invitingEventList", uid, eventID, "isReply"]).isSome = true ∧
    (w.db.bool? ["invitingEventList", uid, eventID, "isMember"]).isSome = true) ∧
  ∀ uid, (EventContentVC.readEventLists w.db uid).isSome = true

theorem recordsReadable_iff (hdb : w.db.Within Schema) :
    w.RecordsReadable ↔ (tables w.db).Readable := by
  have hfields : (tables w.db).Readable ↔
      ∀ uid eventID, w.db.contains ["invitingEventList", uid, eventID] = true →
        (w.db.string? ["invitingEventList", uid, eventID, "eventID"]).isSome = true ∧
        (w.db.bool? ["invitingEventList", uid, eventID, "isReply"]).isSome = true ∧
        (w.db.bool? ["invitingEventList", uid, eventID, "isMember"]).isSome = true := by
    simp only [Tables.Readable, ← contains_iff_recorded hdb, full_tables]
  rw [hfields, RecordsReadable]
  refine ⟨And.left, fun h => ⟨h, fun uid => ?_⟩⟩
  rw [EventContentVC.readEventLists, mapM_isSome_iff]
  intro eventID hchild
  rw [Store.mem_children_iff_contains] at hchild
  obtain ⟨hkey, hreply, hmember⟩ := h uid eventID hchild
  obtain ⟨key, hkey⟩ := Option.isSome_iff_exists.mp hkey
  obtain ⟨isReply, hreply⟩ := Option.isSome_iff_exists.mp hreply
  obtain ⟨isMember, hmember⟩ := Option.isSome_iff_exists.mp hmember
  simp [EventList.read, hkey, hreply, hmember]

/-- A completed edit removes only users who have an invitation record: whoever is in
`Set(deletedMembers)` and is not listed any more. -/
def DeletesInvited (w : World) : Action → Prop
  | .uploaded screen runtime _ _ => ∀ vc autoID event, w.addVCs[screen]? = some vc →
    vc.phase = .uploading autoID → vc.event = some event → vc.user.isSome = true →
    ∀ member ∈ KeyedSet.ofArray runtime.hash vc.deletedMembers,
      runtime.hash member ∉ vc.members.map runtime.hash →
      w.db.contains ["invitingEventList", member.userID, event.eventID] = true
  | _ => True

theorem submission_patches {vc : AddEventVC} {runtime : Runtime} {eventID uid e : String} :
    (submission vc runtime eventID).Patches uid e ↔
      e = eventID ∧ vc.user.isSome = true ∧ uid ∈ removedIDs vc runtime := by
  unfold submission
  split
  · next huser =>
    simp only [Change.Patches, huser, Option.isSome_some, true_and]
    constructor
    · exact fun h => ⟨h.1, h.2.1⟩
    · exact fun h => ⟨h.1, h.2, fun hedited =>
        not_mem_removedIDs_of_mem_editedIDs vc runtime hedited h.2⟩
  · next huser _ => simp [Change.Patches, huser]
  · next huser _ _ => simp [Change.Patches, huser]
  · next huser _ _ => simp [Change.Patches, huser]

/-- Among the changes a state offers, only the removal loop can patch a missing record. -/
theorem patches_iff (henr : Enrolled w) (hacc : Accounts w) (hdb : w.db.Within Schema)
    (h : Step ids w a w') :
    (∀ uid eventID, (w.change a).Patches uid eventID → (tables w.db).Recorded uid eventID) ↔
      w.DeletesInvited a := by
  cases h with
  | agree hvc hprompt =>
    simp only [change, hvc, DeletesInvited, iff_true]
    rintro _ _ ⟨rfl, rfl⟩
    exact (henr.prompts _ (List.mem_of_getElem? hvc)).1 (Option.isSome_of_eq_some hprompt)
  | reject hvc hprompt _ =>
    simp only [change, hvc, DeletesInvited, iff_true]
    rintro _ _ ⟨rfl, rfl⟩
    exact (henr.prompts _ (List.mem_of_getElem? hvc)).1 (Option.isSome_of_eq_some hprompt)
  | dropOut hvc _ hmember =>
    simp only [change, hvc, DeletesInvited, iff_true]
    rintro _ _ ⟨rfl, rfl⟩
    have hmem := List.mem_of_getElem? hvc
    exact henr.held _ _ (.content hmem) _ hmember (hacc.content _ hmem).1
  | @uploaded screen runtime _ _ autoID vc hvc hphase =>
    simp only [change, hvc, hphase, DeletesInvited, submission_patches]
    constructor
    · rintro hpatches _ _ event ⟨⟩ - hevent huser member hmember hkept
      rw [contains_iff_recorded hdb]
      apply hpatches
      refine ⟨by simp [AddEventVC.submittedID, hevent], huser, ?_⟩
      exact (mem_removedIDs_iff vc runtime hevent).mpr ⟨member, hmember, hkept, rfl⟩
    · rintro hdeletes uid _ ⟨rfl, huser, hremoved⟩
      obtain ⟨event, hevent⟩ := Option.isSome_iff_exists.mp (mem_removedIDs vc runtime hremoved).1
      obtain ⟨member, hmember, hkept, rfl⟩ := (mem_removedIDs_iff vc runtime hevent).mp hremoved
      rw [← contains_iff_recorded hdb, AddEventVC.submittedID, hevent]
      exact hdeletes vc autoID event rfl hphase hevent huser member hmember hkept
  | _ => exact ⟨fun _ => trivial, fun _ _ _ hpatch => hpatch.elim⟩

structure Known (w : World) : Prop where
  schema : w.db.Within Schema
  accounts : Accounts w
  enrolled : Enrolled w

theorem Known.step (hw : Known w) (h : Step ids w a w') : Known w' where
  schema := h.db_eq ▸ hw.schema.applyAll h.issued_within
  accounts := hw.accounts.step hw.schema h
  enrolled := hw.enrolled.step hw.schema h

/-- All records stay readable, and no event screen traps on one, exactly in the runs
whose edits remove only users who have an invitation record for the event. -/
theorem records_readable_iff (ids : AutoId) (actions : List Action) :
    Always (step ids) RecordsReadable World.empty actions ↔
      EachStep (step ids) DeletesInvited World.empty actions := by
  have hempty : Known World.empty := ⟨Store.Within.empty Schema, Accounts.empty, Enrolled.empty⟩
  refine always_iff_eachStep Known ?_ ?_ hempty ?_ actions
  · intro w a w' hw hreadable hstep
    have h := Step.of_step ids hstep
    rw [recordsReadable_iff hw.schema] at hreadable
    rw [recordsReadable_iff (hw.step h).schema, h.tables_eq,
      Change.readable_iff (w.change a) hreadable]
    exact patches_iff hw.enrolled hw.accounts hw.schema h
  · exact fun w a w' hw _ _ hstep => hw.step (Step.of_step ids hstep)
  · rw [recordsReadable_iff hempty.schema]
    intro user event hrecorded
    simp [Tables.Recorded, tables, World.empty, Store.string?, Store.bool?,
      Invitation.exists?] at hrecorded

/-- Alice edits the event, adds Carol and deletes her again before pressing done. -/
def addThenDelete : List Action :=
  creation ++ [.saveUser carol, .openEvent "alice" "k" none, .editEvent 0, .queryOrganiserData 1,
    .didUpdateMember 1 carol, .deleteData 1 0, .done 1, .uploaded 1 .inOrder "2018-12-02" "party.jpg"]

/-- Carol was never invited, and is left with a record of one field, on which every
event she opens traps. -/
theorem records_not_readable : ∃ w, exec (step .unary) World.empty addThenDelete = some w ∧
    w.db.contains ["invitingEventList", "carol", "k"] = true ∧
    w.db.string? ["invitingEventList", "carol", "k", "eventID"] = none ∧
    EventContentVC.readEventLists w.db "carol" = none := by
  have hrun : ((exec (step .unary) World.empty addThenDelete).any fun w =>
      w.db.contains ["invitingEventList", "carol", "k"] &&
        (w.db.string? ["invitingEventList", "carol", "k", "eventID"]).isNone &&
        (EventContentVC.readEventLists w.db "carol").isNone) = true := by decide
  obtain ⟨w, hw, hleft⟩ := (Option.any_eq_true _ _).mp hrun
  simp only [Bool.and_eq_true, Option.isNone_iff_eq_none] at hleft
  exact ⟨w, hw, hleft.1.1, hleft.1.2, hleft.2⟩

end World

end GetTogether
