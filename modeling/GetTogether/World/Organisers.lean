import GetTogether.World.LostUpdates
import GetTogether.World.Mirror
import GetTogether.World.Readable

/-! The organiser of an event. No one place enforces it: only the organiser is offered to
edit, the member search refuses the account that searches, and accepting takes an
invitation, so the organiser stays the same and is never among the guests. -/
namespace GetTogether

open Realtime Roster

namespace Roster

variable {υ ε : Type} [DecidableEq υ] [DecidableEq ε] {tables : Tables υ ε}

theorem Change.recorded_apply (change : Change υ ε) {user : υ} {event : ε}
    (h : (change.apply tables).Recorded user event) :
    tables.Recorded user event ∨ change.Patches user event ∨ user ∈ change.invited event := by
  rcases change.invitation_cases tables user event with ⟨heq, -⟩ | ⟨-, hpatch⟩ | ⟨heq, -⟩
  · exact .inl (by rwa [Tables.Recorded, heq] at h)
  · exact .inr (.inl hpatch)
  · have hpending : ((change.apply tables).invitingEventList user event).pending = true := by
      rw [heq]
      rfl
    rcases change.pending_apply hpending with hold | hinvited
    · have hreply : (tables.invitingEventList user event).isReply = some false := by
        simpa [Invitation.pending] using hold
      exact .inl (by simp [Tables.Recorded, Invitation.exists?, hreply])
    · exact .inr (.inr hinvited)

theorem submission_new (vc : AddEventVC) (runtime : Runtime) {eventID uid e : String}
    (h : (submission vc runtime eventID).Patches uid e ∨
      uid ∈ (submission vc runtime eventID).invited e) :
    e = eventID ∧ ∃ user ∈ vc.members ++ vc.deletedMembers, user.userID = uid := by
  rcases h with hpatch | hinvited
  · obtain ⟨he, -, hremoved⟩ := World.submission_patches.mp hpatch
    obtain ⟨user, huser, hid⟩ := List.mem_map.mp (mem_removedIDs vc runtime hremoved).2.1
    exact ⟨he, user, List.mem_append_right _ huser, hid⟩
  · have hedited := (mem_editedIDs vc runtime (submission_invited vc runtime hinvited)).1
    obtain ⟨user, huser, hid⟩ := List.mem_map.mp hedited
    refine ⟨?_, user, List.mem_append_left _ huser, hid⟩
    have hevent : (submission vc runtime eventID).event = some eventID ∨
        submission vc runtime eventID = .keep := by
      unfold submission
      split <;> simp [Change.event]
    rcases hevent with hevent | hkeep
    · cases hchange : submission vc runtime eventID with
      | submit event removed invited written =>
        rw [hchange, Change.event, Option.some.injEq] at hevent
        rw [hchange, Change.invited, hevent] at hinvited
        by_contra hne
        rw [if_neg (Ne.symm hne)] at hinvited
        exact absurd hinvited List.not_mem_nil
      | _ => simp [hchange, Change.invited] at hinvited
    · simp [hkeep, Change.invited] at hinvited

end Roster

def OrganisedBy (db : Store) (eventID uid : String) : Prop :=
  db.get ["event", eventID, "organiserID"] = some (.string uid)

/-- A key no event is stored under and no invitation names. -/
structure Blank (db : Store) (eventID : String) : Prop where
  organiser : db.get ["event", eventID, "organiserID"] = none
  recorded : ∀ uid, ¬(tables db).Recorded uid eventID

theorem AddEventVC.organiserID_written {vc : AddEventVC} {runtime : Runtime}
    {newID : Nat → String} {uid autoID time url e : String} {result : Option Scalar}
    (h : writtenAt ["event", e, "organiserID"]
      (vc.uploadEventData runtime (some uid) autoID newID time url).writes = some result) :
    e = vc.submittedID autoID ∧ result = some (.string uid) := by
  obtain ⟨write, hwrite, hresult⟩ := exists_of_writtenAt h
  refine vc.uploadEventData_forall runtime
    (P := fun write => write.writtenAt ["event", e, "organiserID"] = some result →
      e = vc.submittedID autoID ∧ result = some (.string uid)) ?_ ?_ ?_ write hwrite hresult
  · intro event _ round member write hwrite hresult
    have hapart := removal_apart vc newID time round member (.inr rfl) event write hwrite
    rw [hapart] at hresult
    cases hresult
  · intro round member write hwrite hresult
    have hapart := invitation_apart vc newID time round member (.inr rfl) _ write hwrite
    rw [hapart] at hresult
    cases hresult
  · intro hresult
    rw [Write.writtenAt_setValue, Option.ite_none_right_eq_some, Option.some.injEq] at hresult
    obtain ⟨hbelow, rfl⟩ := hresult
    have he : vc.submittedID autoID = e := by simpa using hbelow
    exact ⟨he.symm, by simp [storedEvent, Event.uploadedEventData]⟩

namespace World

variable {ids : AutoId} {w w' : World} {a : Action}

theorem Step.organiser_cases (h : Step ids w a w') (e : String) :
    w'.db.get ["event", e, "organiserID"] = w.db.get ["event", e, "organiserID"] ∨
      ∃ screen runtime time url vc autoID, a = .uploaded screen runtime time url ∧
        w.addVCs[screen]? = some vc ∧ vc.phase = .uploading autoID ∧
        e = vc.submittedID autoID ∧
        w'.db.get ["event", e, "organiserID"] = some (.string vc.currentUser) := by
  have hdb := h.db_eq
  cases h with
  | agree hvc hprompt =>
    left
    rw [hdb]
    apply get_applyAll_of_untouched
    simp [issued, hvc, hprompt, EventContentVC.agree]
  | reject hvc hprompt _ =>
    left
    rw [hdb]
    simp only [issued, hvc, hprompt]
    exact get_applyAll_of_apart (EventContentVC.reject_apart _ _ (.inr rfl)) _
  | dropOut hvc _ _ =>
    left
    rw [hdb]
    apply get_applyAll_of_untouched
    simp [issued, hvc, EventContentVC.dropOut]
  | saveUser _ =>
    left
    rw [hdb]
    apply get_applyAll_of_untouched
    simp [issued]
  | @uploaded screen runtime time url autoID vc hvc hphase =>
    rw [hdb, get_applyAll]
    simp only [issued, hvc, hphase]
    cases hwritten : writtenAt ["event", e, "organiserID"] (vc.uploadEventData runtime
        (some vc.currentUser) autoID (fun n => ids.key (w.drawn + n)) time url).writes with
    | none => exact .inl rfl
    | some result =>
      obtain ⟨he, rfl⟩ := AddEventVC.organiserID_written hwritten
      exact .inr ⟨screen, runtime, time, url, vc, autoID, rfl, hvc, hphase, he, rfl⟩
  | _ => exact .inl rfl

theorem Step.recorded_cases (h : Step ids w a w') (hacc : Accounts w) (henr : Enrolled w)
    {uid e : String} (hrecorded : (tables w'.db).Recorded uid e) :
    (tables w.db).Recorded uid e ∨
      ∃ screen runtime time url vc autoID, a = .uploaded screen runtime time url ∧
        w.addVCs[screen]? = some vc ∧ vc.phase = .uploading autoID ∧
        e = vc.submittedID autoID ∧
        ∃ user ∈ vc.members ++ vc.deletedMembers, user.userID = uid := by
  rw [h.tables_eq] at hrecorded
  rcases Change.recorded_apply _ hrecorded with hold | hnew
  · exact .inl hold
  cases h with
  | agree hvc hprompt =>
    simp only [change, hvc, Change.Patches, Change.invited, List.not_mem_nil, or_false] at hnew
    obtain ⟨rfl, rfl⟩ := hnew
    exact .inl ((henr.prompts _ (List.mem_of_getElem? hvc)).1 (Option.isSome_of_eq_some hprompt))
  | reject hvc hprompt _ =>
    simp only [change, hvc, Change.Patches, Change.invited, List.not_mem_nil, or_false] at hnew
    obtain ⟨rfl, rfl⟩ := hnew
    exact .inl ((henr.prompts _ (List.mem_of_getElem? hvc)).1 (Option.isSome_of_eq_some hprompt))
  | dropOut hvc _ hmember =>
    simp only [change, hvc, Change.Patches, Change.invited, List.not_mem_nil, or_false] at hnew
    obtain ⟨rfl, rfl⟩ := hnew
    have hmem := List.mem_of_getElem? hvc
    exact .inl (henr.held _ _ (.content hmem) _ hmember (hacc.content _ hmem).1)
  | @uploaded screen runtime time url autoID vc hvc hphase =>
    simp only [change, hvc, hphase] at hnew
    have hnew := submission_new vc runtime hnew
    exact .inr ⟨screen, runtime, time, url, vc, autoID, rfl, hvc, hphase, hnew⟩
  | _ => simp [change, Change.Patches, Change.invited] at hnew

theorem submittedID_cases (vc : AddEventVC) (autoID : String) :
    (∃ event, vc.event = some event ∧ vc.submittedID autoID = event.eventID) ∨
      vc.event = none ∧ vc.submittedID autoID = autoID := by
  cases hevent : vc.event with
  | none => exact .inr ⟨rfl, by rw [AddEventVC.submittedID, hevent]⟩
  | some event => exact .inl ⟨event, rfl, by rw [AddEventVC.submittedID, hevent]⟩

/-- The organiser is no guest, and every copy and every edit screen knows who it is. -/
structure Organised (ids : AutoId) (w : World) : Prop where
  aside : ∀ e uid, OrganisedBy w.db e uid → uid ≠ "" ∧ ¬(tables w.db).Recorded uid e
  content : ∀ vc ∈ w.contentVCs, OrganisedBy w.db vc.event.eventID vc.event.organiserID ∧
    ∀ user ∈ vc.memberData, user.userID ≠ vc.event.organiserID
  add : ∀ vc ∈ w.addVCs, (∀ event, vc.event = some event →
      OrganisedBy w.db event.eventID event.organiserID ∧ vc.currentUser = event.organiserID) ∧
    ∀ user ∈ vc.members ++ vc.deletedMembers, user.userID ≠ vc.currentUser
  undrawn : ∀ n, w.drawn ≤ n → Blank w.db (ids.key n)
  uploading : ∀ (i : Nat) vc autoID, w.addVCs[i]? = some vc → vc.phase = .uploading autoID →
    vc.event = none → Blank w.db autoID

theorem Blank.empty (eventID : String) : Blank .empty eventID where
  organiser := rfl
  recorded uid h := by
    simp [Tables.Recorded, tables, Store.string?, Store.bool?, Invitation.exists?] at h

theorem Organised.empty (ids : AutoId) : Organised ids World.empty where
  aside e uid h := by simp [OrganisedBy, World.empty] at h
  content vc hvc := absurd hvc List.not_mem_nil
  add vc hvc := absurd hvc List.not_mem_nil
  undrawn n _ := Blank.empty _
  uploading i vc autoID h := absurd h (by simp [World.empty])

section Steps

variable (horg : Organised ids w) (hacc : Accounts w) (henr : Enrolled w)
  (h : Step ids w a w')

include horg h

theorem Organised.organisedBy {e uid : String} (hby : OrganisedBy w.db e uid) :
    OrganisedBy w'.db e uid := by
  rcases h.organiser_cases e with hsame |
    ⟨screen, runtime, time, url, vc, autoID, rfl, hvc, hphase, rfl, hwritten⟩
  · exact hsame.trans hby
  · rcases submittedID_cases vc autoID with ⟨event, hevent, hid⟩ | ⟨hevent, hid⟩
    · obtain ⟨hstored, huser⟩ := (horg.add vc (List.mem_of_getElem? hvc)).1 event hevent
      rw [hid] at hby
      obtain rfl : uid = event.organiserID := by simpa using hby.symm.trans hstored
      exact huser ▸ hwritten
    · rw [hid] at hby
      have hblank := (horg.uploading screen vc autoID hvc hphase hevent).organiser
      exact absurd (hblank.symm.trans hby) (by simp)

include hacc henr

theorem Organised.blank_step {e : String} (hblank : Blank w.db e)
    (hnew : ∀ screen runtime time url vc, a = .uploaded screen runtime time url →
      w.addVCs[screen]? = some vc → vc.phase = .uploading e → vc.event ≠ none) :
    Blank w'.db e := by
  have hother : ∀ screen runtime time url vc autoID, a = .uploaded screen runtime time url →
      w.addVCs[screen]? = some vc → vc.phase = .uploading autoID →
      e ≠ vc.submittedID autoID := by
    rintro screen runtime time url vc autoID ha hvc hphase rfl
    rcases submittedID_cases vc autoID with ⟨event, hevent, hid⟩ | ⟨hevent, hid⟩
    · have hstored := ((horg.add vc (List.mem_of_getElem? hvc)).1 event hevent).1
      rw [hid] at hblank
      exact absurd (hblank.organiser.symm.trans hstored) (by simp)
    · exact hnew screen runtime time url vc ha hvc (hphase.trans (congrArg _ hid.symm)) hevent
  constructor
  · rcases h.organiser_cases e with hsame |
      ⟨screen, runtime, time, url, vc, autoID, ha, hvc, hphase, he, -⟩
    · exact hsame.trans hblank.organiser
    · exact absurd he (hother screen runtime time url vc autoID ha hvc hphase)
  · intro uid hrecorded
    rcases h.recorded_cases hacc henr hrecorded with hold |
      ⟨screen, runtime, time, url, vc, autoID, ha, hvc, hphase, he, -⟩
    · exact hblank.recorded uid hold
    · exact hother screen runtime time url vc autoID ha hvc hphase he

theorem Organised.aside_step {e uid : String} (hby : OrganisedBy w'.db e uid) :
    uid ≠ "" ∧ ¬(tables w'.db).Recorded uid e := by
  rcases h.organiser_cases e with hsame |
    ⟨screen, runtime, time, url, vc, autoID, rfl, hvc, hphase, rfl, hwritten⟩
  · have hold := hsame.symm.trans hby
    refine ⟨(horg.aside e uid hold).1, fun hrecorded => ?_⟩
    rcases h.recorded_cases hacc henr hrecorded with hbefore |
      ⟨screen, runtime, time, url, vc, autoID, rfl, hvc, hphase, rfl, user, huser, hid⟩
    · exact (horg.aside e uid hold).2 hbefore
    · have hadd := horg.add vc (List.mem_of_getElem? hvc)
      rcases submittedID_cases vc autoID with ⟨event, hevent, hsub⟩ | ⟨hevent, hsub⟩
      · obtain ⟨hstored, hself⟩ := hadd.1 event hevent
        rw [hsub] at hold
        have heq : uid = event.organiserID := by simpa using hold.symm.trans hstored
        exact hadd.2 user huser (hid.trans (heq.trans hself.symm))
      · rw [hsub] at hold
        have hblank := (horg.uploading screen vc autoID hvc hphase hevent).organiser
        exact absurd (hblank.symm.trans hold) (by simp)
  · have hmem := List.mem_of_getElem? hvc
    have hadd := horg.add vc hmem
    obtain rfl : vc.currentUser = uid := by simpa using hwritten.symm.trans hby
    refine ⟨(hacc.add vc hmem).1, fun hrecorded => ?_⟩
    rcases h.recorded_cases hacc henr hrecorded with hbefore |
      ⟨screen', runtime', time', url', vc', autoID', ha, hvc', -, -, user, huser, hid⟩
    · rcases submittedID_cases vc autoID with ⟨event, hevent, hsub⟩ | ⟨hevent, hsub⟩
      · obtain ⟨hstored, hself⟩ := hadd.1 event hevent
        rw [hsub, hself] at hbefore
        exact (horg.aside _ _ hstored).2 hbefore
      · rw [hsub] at hbefore
        exact (horg.uploading screen vc autoID hvc hphase hevent).recorded _ hbefore
    · cases ha
      obtain rfl : vc = vc' := Option.some.inj (hvc.symm.trans hvc')
      exact hadd.2 user huser hid

omit hacc in
/-- The users a screen loads are members of its copy, so not the organiser. -/
theorem Organised.content_step (hw : w.db.Within Schema) : ∀ vc ∈ w'.contentVCs,
    OrganisedBy w'.db vc.event.eventID vc.event.organiserID ∧
      ∀ user ∈ vc.memberData, user.userID ≠ vc.event.organiserID := by
  refine h.forall_content (P := fun vc => vc ∈ w.contentVCs) (fun vc hvc => hvc) ?_ ?_ ?_ ?_
  · intro vc hvc
    have hold := horg.content vc hvc
    exact ⟨horg.organisedBy h hold.1, hold.2⟩
  · intro uid eventID notificationID vc hopen _
    obtain ⟨event, notification, hread, rfl⟩ := opened_eq_some hopen
    refine ⟨horg.organisedBy h ?_, fun user huser => absurd huser List.not_mem_nil⟩
    obtain rfl := Event.eventID_of_read hw hread
    exact (Event.read_eq_some.mp hread).2.1
  · intro vc vc' hvc hcall
    have hold := horg.content vc hvc
    rw [hcall.event_eq]
    refine ⟨horg.organisedBy h hold.1, fun user huser => ?_⟩
    rcases hcall.mem_memberData huser with hmember | ⟨⟨uid, hread⟩, hmember⟩
    · exact hold.2 user hmember
    · intro heq
      have hrecorded := henr.held _ _ (.content hvc) user.userID hmember
      rw [heq] at hrecorded
      exact (horg.aside _ _ hold.1).2 (hrecorded (horg.aside _ _ hold.1).1)
  · intro screen vc _ hvc _
    have hold := horg.content vc (List.mem_of_getElem? hvc)
    exact ⟨horg.organisedBy h hold.1, hold.2⟩

omit hacc henr in
theorem Organised.add_step : ∀ vc ∈ w'.addVCs, (∀ event, vc.event = some event →
      OrganisedBy w'.db event.eventID event.organiserID ∧ vc.currentUser = event.organiserID) ∧
    ∀ user ∈ vc.members ++ vc.deletedMembers, user.userID ≠ vc.currentUser := by
  refine h.forall_add (P := fun vc => vc ∈ w.addVCs) (fun vc hvc => hvc) ?_ ?_ ?_ ?_
  · intro vc hvc
    have hold := horg.add vc hvc
    exact ⟨fun event hevent => ⟨horg.organisedBy h (hold.1 event hevent).1, (hold.1 event hevent).2⟩,
      hold.2⟩
  · intro uid now _
    exact ⟨by simp [AddEventVC.newEvent], by simp [AddEventVC.newEvent]⟩
  · intro vc hvc hself
    have hold := horg.content vc hvc
    constructor
    · intro event hevent
      obtain rfl : vc.event = event := Option.some.inj hevent
      exact ⟨horg.organisedBy h hold.1, hself⟩
    · intro user huser
      have huser : user ∈ vc.memberData := by simpa [AddEventVC.editEvent] using huser
      exact fun heq => hold.2 user huser (heq.trans hself)
  · intro vc vc' hvc htap
    have hold := horg.add vc hvc
    obtain ⟨hcurrent, hevent, -⟩ := htap.fixed
    rw [hcurrent, hevent]
    constructor
    · exact fun event hedit => ⟨horg.organisedBy h (hold.1 event hedit).1, (hold.1 event hedit).2⟩
    · intro user huser
      have hlisted : ∀ {user}, user ∈ vc.members ∨ user ∈ vc.deletedMembers →
          user.userID ≠ vc.currentUser := fun hmem =>
        hold.2 _ (List.mem_append.mpr hmem)
      rcases List.mem_append.mp huser with hmember | hdeleted
      · rcases htap.mem_members hmember with hmem | ⟨-, hne, -⟩
        · exact hlisted (.inl hmem)
        · exact hne
      · exact hlisted (htap.mem_deletedMembers hdeleted).symm

theorem Organised.step (hw : w.db.Within Schema) {log : Log String String}
    (hchr : Chronicle ids log w) :
    Organised ids w' where
  aside e uid hby := horg.aside_step hacc henr h hby
  content := horg.content_step henr h hw
  add := horg.add_step h
  undrawn n hn := by
    apply horg.blank_step hacc henr h (horg.undrawn n (h.drawn_le.trans hn))
    intro screen _ _ _ vc _ hvc hphase _
    obtain ⟨m, hm, heq⟩ := (hchr.uploading screen vc _ hvc hphase).1
    have hsame := ids.injective heq
    have hle := h.drawn_le
    omega
  uploading i vc' autoID hvc' hphase' hnone := by
    rcases h.uploading hvc' hphase' with ⟨vc, hvc, hphase, hevent, hstays⟩ | ⟨rfl, rfl⟩
    · apply horg.blank_step hacc henr h
        (horg.uploading i vc autoID hvc hphase (hevent.trans hnone))
      rintro screen runtime time url other rfl hother hup -
      obtain rfl := hchr.distinct screen i other vc autoID hother hvc hup hphase
      exact hstays runtime time url rfl
    · apply horg.blank_step hacc henr h (horg.undrawn w.drawn (Nat.le_refl _))
      intro screen runtime time url vc ha
      cases ha

end Steps

/-- All that is known of the interleaved system in a reachable state. -/
structure Lawful (ids : AutoId) (w : World) : Prop where
  schema : w.db.Within Schema
  accounts : Accounts w
  enrolled : Enrolled w
  chronicle : ∃ log, Chronicle ids log w
  organised : Organised ids w

theorem Lawful.empty (ids : AutoId) : Lawful ids World.empty where
  schema := Store.Within.empty Schema
  accounts := Accounts.empty
  enrolled := Enrolled.empty
  chronicle := ⟨_, Chronicle.empty ids⟩
  organised := Organised.empty ids

theorem Lawful.step (hlaw : Lawful ids w) (h : Step ids w a w') : Lawful ids w' := by
  obtain ⟨hw, hacc, henr, ⟨log, hchr⟩, horg⟩ := hlaw
  exact ⟨h.db_eq ▸ hw.applyAll h.issued_within, hacc.step hw h, henr.step hw h,
    ⟨_, hchr.step hw hacc h⟩, horg.step hacc henr h hw hchr⟩

theorem lawful_reachable (h : Reachable (step ids) World.empty w) : Lawful ids w :=
  h.invariant (Lawful ids) (Lawful.empty ids) fun _ _ _ hlaw hstep =>
    hlaw.step (Step.of_step ids hstep)

/-- In every reachable state the organiser of an event stays its organiser whatever
happens next, is not listed or recorded as invited to it, and is not a member. -/
theorem organiser_fixed_never_guest (ids : AutoId) (w : World)
    (h : Reachable (step ids) World.empty w) (eventID uid : String)
    (hby : OrganisedBy w.db eventID uid) :
    (∀ w', Reachable (step ids) w w' → OrganisedBy w'.db eventID uid) ∧
      w.db.contains ["invitingMemberList", eventID, uid] = false ∧
      w.db.contains ["invitingEventList", uid, eventID] = false ∧
      uid ∉ (w.db.array? ["event", eventID, "memberIDs"]).getD [] := by
  obtain ⟨hw, -, henr, -, horg⟩ := lawful_reachable h
  obtain ⟨hid, haside⟩ := horg.aside eventID uid hby
  refine ⟨?_, ?_, ?_, ?_⟩
  · intro w' hreach
    have hkeep := hreach.invariant
      (fun w => Lawful ids w ∧ OrganisedBy w.db eventID uid) ⟨lawful_reachable h, hby⟩ ?_
    · exact hkeep.2
    · rintro s a s' ⟨hlaw, hold⟩ hstep
      have hstep := Step.of_step ids hstep
      exact ⟨hlaw.step hstep, hlaw.organised.organisedBy hstep hold⟩
  · rw [← Bool.not_eq_true, contains_iff_listed hw, (mirror_reachable h).mirrored]
    intro hpending
    have hreply : ((tables w.db).invitingEventList uid eventID).isReply = some false := by
      simpa [Invitation.pending] using hpending
    exact haside (by simp [Tables.Recorded, Invitation.exists?, hreply])
  · rw [← Bool.not_eq_true, contains_iff_recorded hw]
    exact haside
  · intro hmember
    exact haside (henr.stored eventID uid hmember hid)

theorem organiser_fixed_never_guest_creation :
    ∃ w, exec (step .unary) World.empty creation = some w ∧ OrganisedBy w.db "k" "alice" ∧
      "alice" ∉ (w.db.array? ["event", "k", "memberIDs"]).getD [] := by
  have hrun : ((exec (step .unary) World.empty creation).any fun w =>
      w.db.get ["event", "k", "organiserID"] = some (.string "alice")) = true := by decide
  obtain ⟨w, hw, hby⟩ := (Option.any_eq_true _ _).mp hrun
  have hby : w.db.get ["event", "k", "organiserID"] = some (.string "alice") :=
    of_decide_eq_true hby
  exact ⟨w, hw, hby, (organiser_fixed_never_guest .unary w ⟨creation, hw⟩ "k" "alice" hby).2.2.2⟩

end World

end GetTogether
