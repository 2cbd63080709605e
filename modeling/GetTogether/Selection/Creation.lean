import GetTogether.Selection
import GetTogether.World

/-! What the creation of an event submits: an invitation for everybody chosen on the
screen, and nothing for anybody else. -/
namespace GetTogether

open Realtime Roster

namespace AddEventVC

structure Choosing (vc : AddEventVC) : Prop where
  event : vc.event = none
  deletedMembers : vc.deletedMembers = []
  originalMemers : vc.originalMemers = []
  nodup : (vc.members.map (·.userID)).Nodup
  others : vc.currentUser ∉ vc.members.map (·.userID)

theorem choosing_newEvent (currentUser now : String) : (newEvent currentUser now).Choosing :=
  ⟨rfl, rfl, rfl, List.nodup_nil, List.not_mem_nil⟩

theorem Choosing.select {vc vc' : AddEventVC} {selection : Selection} (hvc : vc.Choosing)
    (h : vc.select selection = some vc') : vc'.Choosing := by
  obtain ⟨hevent, hdeleted, horiginal, hnodup, hothers⟩ := hvc
  rcases select_cases h with rfl | ⟨user, hself, hlisted, rfl⟩ | ⟨item, removed, -, rfl⟩
  · exact ⟨hevent, hdeleted, horiginal, hnodup, hothers⟩
  · refine ⟨hevent, hdeleted, horiginal, List.nodup_cons.mpr ⟨hlisted, hnodup⟩, ?_⟩
    rw [List.map_cons, List.mem_cons, not_or]
    exact ⟨hself.symm, hothers⟩
  · have hsublist := (List.eraseIdx_sublist vc.members item).map (·.userID)
    refine ⟨hevent, ?_, horiginal, hnodup.sublist hsublist, fun h => hothers (hsublist.mem h)⟩
    simp [isEdit, hevent, hdeleted]

/-- Without deletions everybody chosen is invited, unless two ids hash alike. -/
theorem Choosing.mem_editedIDs_iff {vc : AddEventVC} (hvc : vc.Choosing) {runtime : Runtime}
    (hdistinct : ∀ user ∈ vc.members, ∀ other ∈ vc.members,
      runtime.hash user = runtime.hash other → user.userID = other.userID) (uid : String) :
    uid ∈ editedIDs vc runtime ↔ uid ∈ vc.members.map (·.userID) := by
  rw [mem_editedIDs_iff_represents, hvc.deletedMembers, hvc.originalMemers]
  constructor
  · intro h
    exact h.1.mem
  · intro huid
    exact ⟨Represents.of_mem hdistinct huid, List.not_mem_nil, List.not_mem_nil⟩

theorem Choosing.removedIDs_eq_nil {vc : AddEventVC} (hvc : vc.Choosing) (runtime : Runtime) :
    removedIDs vc runtime = [] := by
  simp [removedIDs, isEdit, hvc.event]

/-- The submission of a new event: an invitation for each of the chosen and nothing for
anybody else, notifications under keys of their own, and the event with the organiser and
no member yet. -/
structure InvitesChosen (organiserID eventID : String) (vc : AddEventVC) (outcome : Outcome) :
    Prop where
  submits : ∃ stored : Event, stored.eventID = eventID ∧ stored.organiserID = organiserID ∧
    stored.memberIDs = [""] ∧
    Submits eventID (· ∈ vc.members.map (·.userID)) (fun _ => False) stored outcome
  notificationIDs : (notificationIDs outcome.writes).Nodup

theorem Choosing.invitesChosen {vc : AddEventVC} (hvc : vc.Choosing) {runtime : Runtime}
    (hdistinct : ∀ user ∈ vc.members, ∀ other ∈ vc.members,
      runtime.hash user = runtime.hash other → user.userID = other.userID)
    {user : GUser} (huser : vc.user = some user) (ids : AutoId) (drawn : Nat)
    (autoID time url : String) :
    InvitesChosen vc.currentUser autoID vc
      (vc.uploadEventData runtime (some vc.currentUser) autoID
        (fun round => ids.key (drawn + round)) time url) := by
  have hcompletes : World.Completes vc runtime := .inl (by simp [huser])
  have hsubmits := submits_uploadEventData vc runtime (fun round => ids.key (drawn + round)) time
    vc.currentUser autoID url hcompletes
  have hid : vc.submittedID autoID = autoID := by simp [submittedID, hvc.event]
  rw [hid] at hsubmits
  constructor
  · refine ⟨vc.storedEvent runtime vc.currentUser autoID url, rfl, rfl,
      finalMemberIDs_of_new vc runtime hvc.event, ?_⟩
    refine hsubmits.congr (hvc.mem_editedIDs_iff hdistinct) fun uid => ?_
    simp [hvc.removedIDs_eq_nil runtime]
  · have hevent : notificationIDs [.setValue ["event", autoID]
        (vc.storedEvent runtime vc.currentUser autoID url).uploadedEventData] = [] := rfl
    rw [uploadEventData_of_completes vc runtime _ time vc.currentUser autoID url hcompletes, hid,
      Outcome.issue_writes, submissionWrites,
      removals_of_nil vc runtime _ time (hvc.removedIDs_eq_nil runtime), Outcome.issue_writes,
      List.nil_append, notificationIDs_append, hevent, List.append_nil,
      notificationIDs_invitations vc runtime autoID _ time huser]
    apply List.Nodup.map _ List.nodup_range'
    intro round later h
    have hkeys := ids.injective h
    omega

/-- After any selections on a new-event screen nobody is listed twice and the account is
not listed, and the completed upload invites exactly the chosen. -/
theorem creation_invites_chosen {currentUser now : String} {selections : List Selection}
    {vc : AddEventVC} (h : exec select (newEvent currentUser now) selections = some vc) :
    (vc.members.map (·.userID)).Nodup ∧ currentUser ∉ vc.members.map (·.userID) ∧
    ∀ (runtime : Runtime) (organiser : GUser) (form : Form) (ids : AutoId) (drawn : Nat)
      (autoID time url : String),
      (∀ user ∈ vc.members, ∀ other ∈ vc.members,
        runtime.hash user = runtime.hash other → user.userID = other.userID) →
      InvitesChosen currentUser autoID vc
        ({ vc with user := some organiser, form := form }.uploadEventData runtime
          (some currentUser) autoID (fun round => ids.key (drawn + round)) time url) := by
  have hvc : vc.Choosing :=
    exec_invariant (fun _ _ _ hs hstep => hs.select hstep) (choosing_newEvent currentUser now)
      selections h
  have huser : vc.currentUser = currentUser := by
    rw [select_frame h]
    rfl
  refine ⟨hvc.nodup, huser ▸ hvc.others, ?_⟩
  intro runtime organiser form ids drawn autoID time url hdistinct
  have hfilled : { vc with user := some organiser, form := form }.Choosing :=
    ⟨hvc.event, hvc.deletedMembers, hvc.originalMemers, hvc.nodup, hvc.others⟩
  have hinvites := hfilled.invitesChosen hdistinct rfl ids drawn autoID time url
  rw [← huser]
  exact ⟨hinvites.submits, hinvites.notificationIDs⟩

theorem creation_invites_chosen_bob : ∃ vc,
    exec select (newEvent "alice" "2018-12-01 12:00")
      [.didUpdateMember World.carol, .didUpdateMember World.bob, .deleteData 1] = some vc ∧
    InvitesChosen "alice" "k" vc
      ({ vc with user := some World.alice, form := World.party }.uploadEventData .inOrder
        (some "alice") "k" (fun round => AutoId.unary.key (1 + round)) "2018-12-01 12:00:00"
        "k.jpg") := by
  refine ⟨_, rfl, ?_⟩
  have hinvites := (@creation_invites_chosen "alice" "2018-12-01 12:00"
    [.didUpdateMember World.carol, .didUpdateMember World.bob, .deleteData 1] _ rfl).2.2
  exact hinvites .inOrder World.alice World.party AutoId.unary 1 "k" _ _ (by decide)

end AddEventVC

end GetTogether
