import GetTogether.NotificationVC
import GetTogether.World.Copies

/-! Every stored event is readable and names the empty user: an event is created
with that name alone, and no writer drops it, from however old a copy it works. -/
namespace GetTogether

open Realtime Roster

/-- The event reads back, and its members include the empty user. -/
def EventStored (db : Store) (eventID : String) : Prop :=
  ∃ event, Event.read db ["event", eventID] = some event ∧ "" ∈ event.memberIDs

theorem EventStored.of_get_eq {db db' : Store} {eventID : String}
    (hsame : ∀ rest, db'.get ("event" :: eventID :: rest) = db.get ("event" :: eventID :: rest))
    (h : EventStored db eventID) : EventStored db' eventID := by
  obtain ⟨event, hread, hmem⟩ := h
  refine ⟨event, ?_, hmem⟩
  rw [Event.read_eq_some] at hread ⊢
  simpa only [List.cons_append, List.nil_append, hsame] using hread

theorem Event.read_uploaded (db : Store) (event : Event) (hmembers : event.memberIDs ≠ []) :
    Event.read ((Write.setValue ["event", event.eventID] event.uploadedEventData).apply db)
      ["event", event.eventID] = some event := by
  rw [Event.read_eq_some]
  simp [Write.get_apply, Event.uploadedEventData, hmembers]

/-- The shapes of the writes that touch events: another table, the members of a
known event, or a whole event. -/
inductive SoundWrite (known : String → Prop) : Write → Prop
  | apart {write : Write} : write.Apart "event" → SoundWrite known write
  | members {write : Write} (eventID : String) (members : List String) : known eventID →
      "" ∈ members →
      (∀ query, write.writtenAt query =
        (Tree.scalar (.array members)).writtenAt ["event", eventID, "memberIDs"] query) →
      SoundWrite known write
  | event (event : Event) : "" ∈ event.memberIDs →
      SoundWrite known (.setValue ["event", event.eventID] event.uploadedEventData)

namespace SoundWrite

variable {known : String → Prop} {write : Write}

theorem sentinel (h : SoundWrite known write) {eventID : String} {result : Option Scalar}
    (hresult : write.writtenAt ["event", eventID, "memberIDs"] = some result) :
    ∃ members, result = some (.array members) ∧ "" ∈ members := by
  cases h with
  | apart h => exact absurd ((h _).symm.trans hresult) nofun
  | members e members _ hmem h =>
    rw [h, Tree.writtenAt, Option.ite_none_right_eq_some, Option.some.injEq] at hresult
    refine ⟨members, ?_, hmem⟩
    rw [← hresult.2]
    simp [List.ne_nil_of_mem hmem]
  | event event hmem =>
    rw [Write.writtenAt_setValue, Option.ite_none_right_eq_some, Option.some.injEq] at hresult
    refine ⟨event.memberIDs, ?_, hmem⟩
    rw [← hresult.2]
    simp [Event.uploadedEventData, List.ne_nil_of_mem hmem]

theorem eventStored (h : SoundWrite known write) {db : Store} {eventID : String}
    (hdb : EventStored db eventID) : EventStored (write.apply db) eventID := by
  cases h with
  | apart h =>
    apply EventStored.of_get_eq _ hdb
    intro rest
    rw [Write.get_apply, h]
    rfl
  | members e members _ hmem h =>
    by_cases he : e = eventID
    · subst he
      obtain ⟨event, hread, -⟩ := hdb
      refine ⟨{ event with memberIDs := members }, ?_, hmem⟩
      rw [Event.read_eq_some] at hread ⊢
      simp only [List.cons_append, List.nil_append] at hread ⊢
      simp [Write.get_apply, h, Tree.writtenAt, hread, List.ne_nil_of_mem hmem]
    · apply EventStored.of_get_eq _ hdb
      intro rest
      simp [Write.get_apply, h, Tree.writtenAt, he]
  | event event hmem =>
    by_cases he : event.eventID = eventID
    · subst he
      exact ⟨event, Event.read_uploaded db event (List.ne_nil_of_mem hmem), hmem⟩
    · apply EventStored.of_get_eq _ hdb
      intro rest
      simp [Write.get_apply, he]

/-- No such write starts an event it does not complete. -/
theorem allStored (h : SoundWrite known write) {db : Store}
    (hknown : ∀ eventID, known eventID → EventStored db eventID)
    (hdb : ∀ eventID, db.contains ["event", eventID] = true → EventStored db eventID)
    (eventID : String) (hnode : (write.apply db).contains ["event", eventID] = true) :
    EventStored (write.apply db) eventID := by
  by_cases hold : EventStored db eventID
  · exact h.eventStored hold
  · obtain ⟨rest, value, hget⟩ := (Store.contains_iff _ _).mp hnode
    have hnew : db.get (["event", eventID] ++ rest) ≠ some value := fun hget' =>
      hold (hdb eventID ((Store.contains_iff _ _).mpr ⟨rest, value, hget'⟩))
    rw [Write.get_apply] at hget
    cases h with
    | apart h => exact absurd (by simpa [h (eventID :: rest)] using hget) hnew
    | members e members he hmem h =>
      by_cases heq : e = eventID
      · exact absurd (hknown e he) (heq ▸ hold)
      · exact absurd (by simpa [h, Tree.writtenAt, heq] using hget) hnew
    | event event hmem =>
      by_cases heq : event.eventID = eventID
      · subst heq
        exact ⟨event, Event.read_uploaded db event (List.ne_nil_of_mem hmem), hmem⟩
      · exact absurd (by simpa [heq] using hget) hnew

end SoundWrite

namespace World

variable {ids : AutoId} {w w' : World} {a : Action}

structure Sentinel (w : World) : Prop where
  stored : ∀ eventID, w.db.contains ["event", eventID] = true → EventStored w.db eventID
  held : ∀ eventID memberIDs, w.Held eventID memberIDs →
    "" ∈ memberIDs ∧ EventStored w.db eventID

theorem Sentinel.empty : Sentinel empty where
  stored eventID h := absurd h (by simp [World.empty, Store.empty, Store.contains])
  held eventID memberIDs h := by
    rcases h with ⟨vc, hvc, -⟩ | ⟨vc, hvc, -⟩ <;> exact absurd hvc List.not_mem_nil

/-- The array an edit submission writes still names the empty user: no user with an
id can remove it. -/
theorem sentinel_finalMemberIDs {vc : AddEventVC} (runtime : Runtime)
    (hevent : ∀ event, vc.event = some event → "" ∈ event.memberIDs)
    (hdeleted : ∀ user ∈ vc.deletedMembers, user.userID ≠ "") :
    "" ∈ vc.finalMemberIDs runtime := by
  cases hedit : vc.event with
  | none => simp [finalMemberIDs_of_new vc runtime hedit]
  | some event =>
    rw [mem_finalMemberIDs vc runtime hedit]
    refine ⟨hevent event hedit, fun hremoved => ?_⟩
    obtain ⟨user, huser, hid⟩ := List.mem_map.mp (mem_removedIDs vc runtime hremoved).2.1
    exact hdeleted user huser hid

theorem Step.issued_sound (h : Step ids w a w') (hw : w.db.Within Schema) (hacc : Accounts w)
    (hsen : Sentinel w) : ∀ write ∈ w.issued ids a, SoundWrite (EventStored w.db) write := by
  cases h with
  | saveUser _ =>
    simpa [issued] using SoundWrite.apart (Write.apart_setValue (by decide) _ _)
  | @agree _ vc _ hvc hprompt =>
    have hheld := hsen.held _ _ (.content (List.mem_of_getElem? hvc))
    simp only [issued, hvc, hprompt, Option.map_some, Option.getD_some, EventContentVC.agree,
      List.forall_mem_cons]
    refine ⟨.apart (Write.apart_setValue ?_ _ _), .apart (Write.apart_updateChildValues ?_ _ _ _),
      .apart (Write.apart_removeValue ?_ _), ?_, by simp⟩
    · decide
    · decide
    · decide
    · exact .members vc.event.eventID _ hheld.2 (List.mem_append_left _ hheld.1) fun query => rfl
  | reject hvc hprompt _ =>
    simp only [issued, hvc, hprompt]
    exact fun write hwrite => .apart (EventContentVC.reject_apart _ _ (.inr rfl) write hwrite)
  | @dropOut _ _ vc hvc hoffer hmember =>
    have hmem := List.mem_of_getElem? hvc
    have hheld := hsen.held _ _ (.content hmem)
    simp only [issued, hvc, EventContentVC.dropOut, List.forall_mem_cons]
    refine ⟨?_, .apart (Write.apart_updateChildValues ?_ _ _ _),
      .apart (Write.apart_setValue ?_ _ _), by simp⟩
    · refine .members vc.event.eventID _ hheld.2 (List.mem_filter.mpr ⟨hheld.1, ?_⟩) fun query => rfl
      simpa using (hacc.content vc hmem).1.symm
    · decide
    · decide
  | @uploaded _ runtime _ _ autoID vc hvc hphase =>
    have hmem := List.mem_of_getElem? hvc
    have husers := (hacc.add vc hmem).2
    simp only [issued, hvc, hphase]
    apply AddEventVC.uploadEventData_forall
    · exact fun event _ round member write hwrite =>
        .apart (AddEventVC.removal_apart _ _ _ round member (.inr rfl) event write hwrite)
    · exact fun round member write hwrite =>
        .apart (AddEventVC.invitation_apart _ _ _ round member (.inr rfl) _ write hwrite)
    · refine .event (vc.storedEvent ..) (sentinel_finalMemberIDs runtime ?_ ?_)
      · exact fun event hevent => (hsen.held _ _ (.add hmem hevent)).1
      · exact fun user huser => (husers user (by simp [huser])).ne_empty hw
  | _ => simp [issued]

theorem Sentinel.step (hsen : Sentinel w) (hw : w.db.Within Schema) (hacc : Accounts w)
    (h : Step ids w a w') : Sentinel w' := by
  have hsound := h.issued_sound hw hacc hsen
  have hkeep : (∀ e, EventStored w.db e → EventStored w'.db e) ∧
      ∀ e, w'.db.contains ["event", e] = true → EventStored w'.db e := by
    rw [h.db_eq]
    exact Store.applyAll_invariant (fun db => (∀ e, EventStored w.db e → EventStored db e) ∧
        ∀ e, db.contains ["event", e] = true → EventStored db e)
      (fun write hwrite db hdb => ⟨fun e he => (hsound write hwrite).eventStored (hdb.1 e he),
        (hsound write hwrite).allStored hdb.1 hdb.2⟩) ⟨fun e he => he, hsen.stored⟩
  refine ⟨hkeep.2, h.forall_held hw ?_ ?_ ?_⟩
  · exact fun e m hheld => ⟨(hsen.held e m hheld).1, hkeep.1 e (hsen.held e m hheld).2⟩
  · intro e m hstored
    have hleaf := Store.array?_eq_some.mp hstored
    obtain ⟨event, hread, hmem⟩ :=
      hsen.stored e ((Store.contains_iff _ _).mpr ⟨["memberIDs"], _, hleaf⟩)
    have heq := (Event.read_eq_some.mp hread).2.2.2.1
    simp only [List.cons_append, List.nil_append, hleaf, Option.some.injEq,
      Scalar.array.injEq] at heq
    exact ⟨heq ▸ hmem, hkeep.1 e ⟨event, hread, hmem⟩⟩
  · intro screen vc _ hvc
    have hheld := hsen.held _ _ (.content (List.mem_of_getElem? hvc))
    exact ⟨List.mem_append_left _ hheld.1, hkeep.1 _ hheld.2⟩

theorem sentinel_reachable (h : Reachable (step ids) World.empty w) : Sentinel w := by
  refine (h.invariant (fun w => Reachable (step ids) World.empty w ∧ Sentinel w)
    ⟨Reachable.refl _, Sentinel.empty⟩ ?_).2
  intro s a s' ⟨hs, hsen⟩ hstep
  exact ⟨hs.tail hstep,
    hsen.step (within_schema hs) (accounts_reachable hs) (Step.of_step ids hstep)⟩

/-- Whatever is written to the members of an event names the empty user, so every
stored event reads back and no cast of one traps, on the main screen or for a
notification. -/
theorem memberIDs_never_empty (ids : AutoId) (w : World)
    (h : Reachable (step ids) World.empty w) :
    (∀ a w', step ids w a = some w' → ∀ write ∈ w.issued ids a, ∀ eventID result,
      write.writtenAt ["event", eventID, "memberIDs"] = some result →
        ∃ memberIDs, result = some (.array memberIDs) ∧ "" ∈ memberIDs) ∧
    (∀ eventID, w.db.contains ["event", eventID] = true →
      ∃ memberIDs, w.db.array? ["event", eventID, "memberIDs"] = some memberIDs ∧
        "" ∈ memberIDs) ∧
    (MainVC.readEvents w.db).isSome = true ∧
    ∀ eventID, (NotificationVC.fetchEvent w.db eventID).isSome = true := by
  have hsen := sentinel_reachable h
  refine ⟨?_, ?_, ?_, ?_⟩
  · intro a w' hstep write hwrite eventID result hresult
    exact ((Step.of_step ids hstep).issued_sound (within_schema h) (accounts_reachable h) hsen
      write hwrite).sentinel hresult
  · intro eventID hnode
    obtain ⟨event, hread, hmem⟩ := hsen.stored eventID hnode
    exact ⟨event.memberIDs, Store.array?_eq_some.mpr (Event.read_eq_some.mp hread).2.2.2.1, hmem⟩
  · rw [MainVC.readEvents, Option.isSome_map, mapM_isSome_iff]
    intro eventID hchild
    rw [Store.mem_children_iff_contains] at hchild
    obtain ⟨event, hread, -⟩ := hsen.stored eventID hchild
    exact Option.isSome_of_eq_some hread
  · intro eventID
    unfold NotificationVC.fetchEvent
    split
    · next hnode =>
      obtain ⟨event, hread, -⟩ := hsen.stored eventID hnode
      simp [hread]
    · rfl

theorem memberIDs_never_empty_creation :
    ∃ w, exec (step .unary) World.empty creation = some w ∧
      w.db.contains ["event", "k"] = true ∧ (MainVC.readEvents w.db).isSome = true := by
  have hrun : ((exec (step .unary) World.empty creation).any fun w =>
      w.db.contains ["event", "k"]) = true := by decide
  obtain ⟨w, hw, hnode⟩ := (Option.any_eq_true _ _).mp hrun
  exact ⟨w, hw, hnode, (memberIDs_never_empty .unary w ⟨creation, hw⟩).2.2.1⟩

end World

end GetTogether
