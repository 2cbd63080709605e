import GetTogether.World.Organisers

/-! Nobody becomes a member unasked. Beside a run goes a log of who was invited by whom
and who said yes; whatever stale copies the member arrays are written from, everyone
named in one was first invited by the organiser of the event and accepted after that. -/
namespace GetTogether

open Realtime Roster

inductive Deed where
  | invited (organiser uid eventID : String)
  | accepted (uid eventID : String)
  deriving DecidableEq, Repr

namespace Roster

variable {υ ε : Type} {tables : Tables υ ε} {user : υ} {event : ε}

theorem Change.pending_of_invited [DecidableEq υ] [DecidableEq ε] (change : Change υ ε)
    (h : user ∈ change.invited event) :
    ((change.apply tables).invitingEventList user event).pending = true := by
  cases change with
  | submit e removed invited written =>
    simp only [Change.invited] at h
    split at h
    · next he =>
      subst he
      simp [Change.apply, Tables.submit, h, Invitation.pending]
    · exact absurd h List.not_mem_nil
  | _ => exact absurd h List.not_mem_nil

theorem Tables.recorded_of_pending
    (h : (tables.invitingEventList user event).pending = true) : tables.Recorded user event := by
  have hreply : (tables.invitingEventList user event).isReply = some false := by
    simpa [Invitation.pending] using h
  simp [Tables.Recorded, Invitation.exists?, hreply]

end Roster

namespace World

def deeds (w : World) : Action → List Deed
  | .agree screen => match w.contentVCs[screen]? with
    | some vc => [.accepted vc.currentUser vc.event.eventID]
    | none => []
  | .uploaded screen runtime _ _ => match w.addVCs[screen]? with
    | some vc => match vc.phase with
      | .uploading autoID =>
        ((submission vc runtime (vc.submittedID autoID)).invited (vc.submittedID autoID)).map
          fun uid => .invited vc.currentUser uid (vc.submittedID autoID)
      | _ => []
    | none => []
  | _ => []

def logDeeds (log : List Deed) (w : World) (a : Action) : List Deed := log ++ w.deeds a

variable {ids : AutoId} {w w' : World} {a : Action} {log : List Deed}

theorem Step.invited_deed (h : Step ids w a w') {host uid e : String}
    (hdeed : .invited host uid e ∈ w.deeds a) :
    uid ∈ (w.change a).invited e ∧ ∃ screen runtime time url vc autoID,
      a = .uploaded screen runtime time url ∧ w.addVCs[screen]? = some vc ∧
        vc.phase = .uploading autoID ∧ host = vc.currentUser ∧ e = vc.submittedID autoID := by
  cases h with
  | agree hvc _ => simp [deeds, hvc] at hdeed
  | @uploaded screen runtime time url autoID vc hvc hphase =>
    simp only [deeds, hvc, hphase, List.mem_map, Deed.invited.injEq] at hdeed
    obtain ⟨uid, hinvited, rfl, rfl, rfl⟩ := hdeed
    simp only [change, hvc, hphase]
    exact ⟨hinvited, screen, runtime, time, url, vc, autoID, rfl, hvc, hphase, rfl, rfl⟩
  | _ => exact absurd hdeed List.not_mem_nil

theorem Step.deed_of_invited (h : Step ids w a w') {uid e : String}
    (hinvited : uid ∈ (w.change a).invited e) : ∃ host, .invited host uid e ∈ w.deeds a := by
  cases h with
  | agree hvc _ => simp [change, hvc, Change.invited] at hinvited
  | reject hvc _ _ => simp [change, hvc, Change.invited] at hinvited
  | dropOut hvc _ _ => simp [change, hvc, Change.invited] at hinvited
  | @uploaded screen runtime time url autoID vc hvc hphase =>
    simp only [change, hvc, hphase] at hinvited
    obtain ⟨rfl, -⟩ := submission_new vc runtime (.inr hinvited)
    simp only [deeds, hvc, hphase, List.mem_map]
    exact ⟨vc.currentUser, uid, hinvited, rfl⟩
  | _ => exact absurd hinvited List.not_mem_nil

theorem Step.deeds_of_accept (h : Step ids w a w') {uid e : String} {held : List String}
    (hchange : w.change a = .accept uid e held) : w.deeds a = [.accepted uid e] := by
  cases h with
  | agree hvc _ =>
    simp only [change, hvc, Change.accept.injEq] at hchange
    obtain ⟨rfl, rfl, -⟩ := hchange
    simp only [deeds, hvc]
  | reject hvc _ _ => simp [change, hvc] at hchange
  | dropOut hvc _ _ => simp [change, hvc] at hchange
  | @uploaded screen runtime time url autoID vc hvc hphase =>
    simp only [change, hvc, hphase, submission] at hchange
    split at hchange <;> cases hchange
  | _ => cases hchange

/-- What the log knows of everyone who can be, or is, a member. -/
structure Consented (log : List Deed) (w : World) : Prop where
  recorded : ∀ host uid e, .invited host uid e ∈ log → (tables w.db).Recorded uid e
  organiser : ∀ host uid e, .invited host uid e ∈ log → ∀ other, OrganisedBy w.db e other → host = other
  pending : ∀ uid e, ((tables w.db).invitingEventList uid e).pending = true →
    ∃ host, .invited host uid e ∈ log
  prompts : ∀ vc ∈ w.contentVCs,
    (vc.answerSelector.isSome = true →
      ∃ host, .invited host vc.currentUser vc.event.eventID ∈ log) ∧
    ∀ list ∈ vc.userFetches, list.isReply = false →
      ∃ host, .invited host vc.currentUser list.eventID ∈ log
  stored : ∀ e, ∀ uid ∈ (tables w.db).memberIDs e, uid ≠ "" → ∃ host, OrganisedBy w.db e host ∧
    [.invited host uid e, .accepted uid e].Sublist log
  held : ∀ e m, w.Held e m → ∀ uid ∈ m, uid ≠ "" → ∃ host, OrganisedBy w.db e host ∧
    [.invited host uid e, .accepted uid e].Sublist log

theorem Consented.empty : Consented [] World.empty where
  recorded host uid e h := absurd h List.not_mem_nil
  organiser host uid e h := absurd h List.not_mem_nil
  pending uid e h := by simp [World.empty, Store.bool?] at h
  prompts vc hvc := absurd hvc List.not_mem_nil
  stored e uid h := by simp [tables, World.empty, Store.array?] at h
  held e m h := by
    rcases h with ⟨vc, hvc, -⟩ | ⟨vc, hvc, -⟩ <;> exact absurd hvc List.not_mem_nil

section Steps

variable (hcon : Consented log w) (hlaw : Lawful ids w) (h : Step ids w a w')

include hcon h

theorem Consented.recorded_step {host uid e : String}
    (hdeed : .invited host uid e ∈ w.logDeeds log a) : (tables w'.db).Recorded uid e := by
  rw [h.tables_eq]
  rcases List.mem_append.mp hdeed with hold | hnew
  · exact Change.recorded _ (hcon.recorded host uid e hold)
  · exact Tables.recorded_of_pending (Change.pending_of_invited _ (h.invited_deed hnew).1)

include hlaw in
/-- Who writes an event that has no organiser yet finds nobody invited to it. -/
theorem Consented.organiser_step {host uid e other : String}
    (hdeed : .invited host uid e ∈ w.logDeeds log a) (hby : OrganisedBy w'.db e other) :
    host = other := by
  have horg := hlaw.organised
  rcases h.organiser_cases e with hsame |
    ⟨screen, runtime, time, url, vc, autoID, ha, hvc, hphase, rfl, hwritten⟩
  · have hbefore : OrganisedBy w.db e other := hsame.symm.trans hby
    rcases List.mem_append.mp hdeed with hold | hnew
    · exact hcon.organiser host uid e hold other hbefore
    · obtain ⟨-, screen, _, _, _, vc, autoID, -, hvc, hphase, rfl, rfl⟩ := h.invited_deed hnew
      rcases submittedID_cases vc autoID with ⟨event, hevent, hid⟩ | ⟨hevent, hid⟩
      · obtain ⟨hstored, hself⟩ := (horg.add vc (List.mem_of_getElem? hvc)).1 event hevent
        rw [hid] at hbefore
        have heq : other = event.organiserID := by simpa using hbefore.symm.trans hstored
        exact hself.trans heq.symm
      · rw [hid] at hbefore
        have hblank := (horg.uploading screen vc autoID hvc hphase hevent).organiser
        exact absurd (hblank.symm.trans hbefore) (by simp)
  · have hother : vc.currentUser = other := by simpa using hwritten.symm.trans hby
    rcases List.mem_append.mp hdeed with hold | hnew
    · rcases submittedID_cases vc autoID with ⟨event, hevent, hid⟩ | ⟨hevent, hid⟩
      · obtain ⟨hstored, hself⟩ := (horg.add vc (List.mem_of_getElem? hvc)).1 event hevent
        rw [hid] at hold
        exact (hcon.organiser host uid _ hold _ hstored).trans (hself.symm.trans hother)
      · rw [hid] at hold
        have hblank := horg.uploading screen vc autoID hvc hphase hevent
        exact absurd (hcon.recorded host uid _ hold) (hblank.recorded uid)
    · obtain ⟨-, screen', _, _, _, vc', autoID', ha', hvc', -, rfl, -⟩ := h.invited_deed hnew
      cases ha.symm.trans ha'
      obtain rfl : vc = vc' := Option.some.inj (hvc.symm.trans hvc')
      exact hother

theorem Consented.pending_step {uid e : String}
    (hpending : ((tables w'.db).invitingEventList uid e).pending = true) :
    ∃ host, .invited host uid e ∈ w.logDeeds log a := by
  rw [h.tables_eq] at hpending
  rcases Change.pending_apply (w.change a) hpending with hold | hnew
  · obtain ⟨host, hdeed⟩ := hcon.pending uid e hold
    exact ⟨host, List.mem_append_left _ hdeed⟩
  · obtain ⟨host, hdeed⟩ := h.deed_of_invited hnew
    exact ⟨host, List.mem_append_right _ hdeed⟩

theorem Consented.prompts_step (hw : w.db.Within Schema) : ∀ vc ∈ w'.contentVCs,
    (vc.answerSelector.isSome = true →
      ∃ host, .invited host vc.currentUser vc.event.eventID ∈ w.logDeeds log a) ∧
    ∀ list ∈ vc.userFetches, list.isReply = false →
      ∃ host, .invited host vc.currentUser list.eventID ∈ w.logDeeds log a := by
  have hlogged : ∀ {uid e}, (∃ host, Deed.invited host uid e ∈ log) →
      ∃ host, .invited host uid e ∈ w.logDeeds log a := by
    rintro uid e ⟨host, hdeed⟩
    exact ⟨host, List.mem_append_left _ hdeed⟩
  refine h.forall_content hcon.prompts ?_ ?_ ?_ ?_
  · exact fun vc hvc => ⟨fun hprompt => hlogged (hvc.1 hprompt),
      fun list hlist hreply => hlogged (hvc.2 list hlist hreply)⟩
  · intro uid eventID notificationID vc hopen _
    obtain ⟨event, notification, -, rfl⟩ := opened_eq_some hopen
    exact ⟨fun hprompt => absurd hprompt (by simp), fun list hlist =>
      absurd hlist List.not_mem_nil⟩
  · intro vc vc' hvc hcall
    rw [hcall.currentUser_eq, hcall.event_eq]
    constructor
    · intro hprompt
      apply hlogged
      rcases hcall.answerSelector_isSome hprompt with hold | ⟨list, hlist, heq, hreply⟩
      · exact hvc.1 hold
      · exact heq ▸ hvc.2 list hlist hreply
    · intro list hlist hreply
      apply hlogged
      rcases hcall.mem_userFetches hlist with hold | ⟨key, hread⟩
      · exact hvc.2 list hold hreply
      · apply hcon.pending
        have hleaf := (EventList.read_eq_some.mp hread).2.1
        rw [EventList.eventID_of_read hw hread, pending_tables]
        exact Store.bool?_eq_some.mpr (hreply ▸ hleaf)
  · intro screen vc _ _ hvc
    exact ⟨fun hprompt => absurd hprompt (by simp [EventContentVC.agreed]),
      fun list hlist hreply => hlogged (hvc.2 list hlist hreply)⟩

include hlaw

theorem Consented.step : Consented (w.logDeeds log a) w' := by
  have hmembers := h.forall_member hlaw.schema hcon.held hcon.stored
    (Q := fun e uid => ∃ host, OrganisedBy w'.db e host ∧
      [.invited host uid e, .accepted uid e].Sublist (w.logDeeds log a)) ?_ ?_
  · exact ⟨fun _ _ _ => hcon.recorded_step h, fun _ _ _ hdeed _ => hcon.organiser_step hlaw h hdeed,
      fun _ _ => hcon.pending_step h, hcon.prompts_step h hlaw.schema, hmembers.1, hmembers.2⟩
  · rintro e uid ⟨host, hby, hsub⟩
    exact ⟨host, hlaw.organised.organisedBy h hby, hsub.trans (List.sublist_append_left _ _)⟩
  · intro vc hvc hprompt hchange
    -- The prompt comes from an invitation, and only the organiser of the event invites to it.
    obtain ⟨host, hdeed⟩ := (hcon.prompts vc hvc).1 hprompt
    have hby := (hlaw.organised.content vc hvc).1
    obtain rfl := hcon.organiser host _ _ hdeed _ hby
    refine ⟨_, hlaw.organised.organisedBy h hby, ?_⟩
    rw [logDeeds, h.deeds_of_accept hchange]
    exact List.Sublist.append (List.singleton_sublist.mpr hdeed) (List.Sublist.refl _)

end Steps

theorem consented_reachable
    (h : Reachable (logged (step ids) logDeeds) ([], World.empty) (log, w)) :
    Lawful ids w ∧ Consented log w := by
  refine h.invariant (fun s => Lawful ids s.2 ∧ Consented s.1 s.2)
    ⟨Lawful.empty ids, Consented.empty⟩ ?_
  rintro s a s' ⟨hlaw, hcon⟩ hstep
  obtain ⟨final, hfinal, rfl⟩ := logged_cases hstep
  have hstep := Step.of_step ids hfinal
  exact ⟨hlaw.step hstep, hcon.step hlaw hstep⟩

/-- Whatever screens act on whatever copies, a member of an event was invited by its
organiser and said yes after that. -/
theorem members_consented (ids : AutoId) (log : List Deed) (w : World)
    (h : Reachable (logged (step ids) logDeeds) ([], World.empty) (log, w))
    (eventID uid : String)
    (hmember : uid ∈ (w.db.array? ["event", eventID, "memberIDs"]).getD []) (huid : uid ≠ "") :
    ∃ organiserID, OrganisedBy w.db eventID organiserID ∧
      [.invited organiserID uid eventID, .accepted uid eventID].Sublist log :=
  (consented_reachable h).2.stored eventID uid hmember huid

def acceptance : List Action :=
  creation ++ [.openEvent "bob" "k" (some "kk"), .queryEventList 0,
    .userFetched 0 0 "2018-12-02", .agree 0]

theorem members_consented_acceptance : ∃ log w,
    exec (logged (step .unary) logDeeds) ([], World.empty) acceptance =
        some (log, w) ∧
      ∃ organiserID, OrganisedBy w.db "k" organiserID ∧
        [.invited organiserID "bob" "k", .accepted "bob" "k"].Sublist log := by
  have hrun : ((exec (logged (step .unary) logDeeds) ([], World.empty)
      acceptance).any fun s =>
        "bob" ∈ (s.2.db.array? ["event", "k", "memberIDs"]).getD []) = true := by decide
  obtain ⟨s, hs, hmember⟩ := (Option.any_eq_true _ _).mp hrun
  exact ⟨s.1, s.2, hs, members_consented .unary s.1 s.2 ⟨acceptance, hs⟩ "k" "bob"
    (of_decide_eq_true hmember) (by decide)⟩

end World

end GetTogether
