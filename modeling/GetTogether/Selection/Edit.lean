import GetTogether.Selection

/-! What an edit submits, against the difference between the members the screen was
opened with and those it shows at the end. A user who is deleted without having been
a member stays among the deleted, whether or not they are added again. -/
namespace GetTogether

open Realtime Roster

/-- In the one list and not in the other, by id. -/
def Only (users others : List GUser) (uid : String) : Prop :=
  uid ∈ users.map (·.userID) ∧ uid ∉ others.map (·.userID)

instance (users others : List GUser) (uid : String) : Decidable (Only users others uid) :=
  inferInstanceAs (Decidable (_ ∧ _))

/-- The submission of the edited event invites who is new in the list, removes who is
no longer in it, and takes the removed out of the stored members. -/
def SubmitsDifference (event : Event) (vc : AddEventVC) (outcome : Outcome) : Prop :=
  ∃ stored : Event,
    (∀ uid, uid ∈ stored.memberIDs ↔
      uid ∈ event.memberIDs ∧ ¬Only vc.originalMemers vc.members uid) ∧
    Submits event.eventID (Only vc.members vc.originalMemers) (Only vc.originalMemers vc.members)
      stored outcome

/-- The sets lose nobody who is new or gone, and nobody else counts as gone. -/
structure TellsApart (runtime : Runtime) (members deletedMembers originalMemers : List GUser) :
    Prop where
  added : ∀ uid, Only members originalMemers uid → Represents runtime members uid ∧
    ¬Hashes runtime deletedMembers uid ∧ ¬Hashes runtime originalMemers uid
  deleted : ∀ uid, Only originalMemers members uid →
    Represents runtime deletedMembers uid ∧ ¬Hashes runtime members uid
  unlisted : ∀ uid, Only deletedMembers originalMemers uid →
    Represents runtime deletedMembers uid → Hashes runtime members uid

section Difference

variable {vc : AddEventVC} {runtime : Runtime} {event : Event} (hevent : vc.event = some event)

include hevent

theorem tellsApart_iff : TellsApart runtime vc.members vc.deletedMembers vc.originalMemers ↔
    (∀ uid, uid ∈ editedIDs vc runtime ↔ Only vc.members vc.originalMemers uid) ∧
      ∀ uid, uid ∈ removedIDs vc runtime ↔ Only vc.originalMemers vc.members uid := by
  simp only [mem_editedIDs_iff_represents, mem_removedIDs_iff_represents vc runtime _ hevent]
  constructor
  · intro h
    refine ⟨fun uid => ⟨?_, h.added uid⟩, fun uid => ⟨?_, h.deleted uid⟩⟩
    · rintro ⟨hmember, -, horiginal⟩
      exact ⟨hmember.mem, fun hmem => horiginal (Hashes.of_mem runtime hmem)⟩
    · rintro ⟨hdeleted, hmember⟩
      refine ⟨?_, fun hmem => hmember (Hashes.of_mem runtime hmem)⟩
      by_contra horiginal
      exact hmember (h.unlisted uid ⟨hdeleted.mem, horiginal⟩ hdeleted)
  · rintro ⟨hedited, hremoved⟩
    refine ⟨fun uid => (hedited uid).mpr, fun uid => (hremoved uid).mpr, ?_⟩
    intro uid hunlisted hdeleted
    by_contra hmember
    exact hunlisted.2 ((hremoved uid).mp ⟨hdeleted, hmember⟩).1

/-- Where the sets tell everybody apart, nothing is left to do exactly when the two lists
have the same users. -/
theorem completes_iff (h : TellsApart runtime vc.members vc.deletedMembers vc.originalMemers) :
    World.Completes vc runtime ↔
      vc.user.isSome ∨
        ∀ uid, uid ∈ vc.members.map (·.userID) ↔ uid ∈ vc.originalMemers.map (·.userID) := by
  obtain ⟨hedited, hremoved⟩ := (tellsApart_iff hevent).mp h
  rw [World.Completes]
  apply or_congr Iff.rfl
  simp only [List.eq_nil_iff_forall_not_mem, hedited, hremoved, Only]
  constructor
  · rintro ⟨hdeleted, hadded⟩ uid
    have hadded := hadded uid
    have hdeleted := hdeleted uid
    tauto
  · intro hsame
    constructor
    · intro uid hnew
      exact hnew.2 ((hsame uid).mpr hnew.1)
    · intro uid hgone
      exact hgone.2 ((hsame uid).mp hgone.1)

theorem submitsDifference_iff (runtime : Runtime) (signedIn : Option String) (autoID : String)
    (newID : Nat → String) (time url : String) :
    SubmitsDifference event vc (vc.uploadEventData runtime signedIn autoID newID time url) ↔
      signedIn.isSome ∧ (vc.user.isSome ∨ ∀ uid, uid ∈ vc.members.map (·.userID) ↔
        uid ∈ vc.originalMemers.map (·.userID)) ∧
        TellsApart runtime vc.members vc.deletedMembers vc.originalMemers := by
  have hid : vc.submittedID autoID = event.eventID := by simp [AddEventVC.submittedID, hevent]
  cases signedIn with
  | none =>
    constructor
    · rintro ⟨stored, -, h⟩
      exact absurd h.event (by simp [AddEventVC.uploadEventData])
    · rintro ⟨h, -⟩
      exact absurd h (by simp)
  | some uid =>
    constructor
    · rintro ⟨stored, -, h⟩
      have hcompletes : World.Completes vc runtime := by
        by_contra hnot
        obtain ⟨write, rest, hstopped⟩ :=
          stopped_of_not_completes vc runtime newID time autoID hnot
        have htrapped := h.trapped
        rw [hstopped uid url] at htrapped
        cases htrapped
      have hsubmits := submits_uploadEventData vc runtime newID time uid autoID url hcompletes
      rw [hid] at hsubmits
      have hapart := (tellsApart_iff hevent).mpr ⟨fun member => (hsubmits.unique h member).1,
        fun member => (hsubmits.unique h member).2⟩
      exact ⟨rfl, (completes_iff hevent hapart).mp hcompletes, hapart⟩
    · rintro ⟨-, hloaded, hapart⟩
      obtain ⟨hedited, hremoved⟩ := (tellsApart_iff hevent).mp hapart
      have hcompletes := (completes_iff hevent hapart).mpr hloaded
      have hsubmits := submits_uploadEventData vc runtime newID time uid autoID url hcompletes
      rw [hid] at hsubmits
      refine ⟨_, fun member => ?_, hsubmits.congr hedited hremoved⟩
      rw [AddEventVC.storedEvent, mem_finalMemberIDs vc runtime hevent, hremoved]

end Difference

namespace AddEventVC

theorem original_listed_or_deleted {content : EventContentVC} {selections : List Selection}
    {vc : AddEventVC} (h : exec select (editEvent content) selections = some vc) {uid : String}
    (huid : uid ∈ vc.originalMemers.map (·.userID)) :
    uid ∈ vc.members.map (·.userID) ∨ uid ∈ vc.deletedMembers.map (·.userID) := by
  have hstep : ∀ s selection s', (s.isEdit = true ∧ ∀ uid ∈ s.originalMemers.map (·.userID),
        uid ∈ s.members.map (·.userID) ∨ uid ∈ s.deletedMembers.map (·.userID)) →
      select s selection = some s' →
      (s'.isEdit = true ∧ ∀ uid ∈ s'.originalMemers.map (·.userID),
        uid ∈ s'.members.map (·.userID) ∨ uid ∈ s'.deletedMembers.map (·.userID)) := by
    intro s selection s' hs hstep
    obtain ⟨hedit, hkept⟩ := hs
    rcases select_cases hstep with rfl | ⟨user, -, -, rfl⟩ | ⟨item, removed, hremoved, rfl⟩
    · exact ⟨hedit, hkept⟩
    · refine ⟨hedit, fun uid huid => ?_⟩
      rcases hkept uid huid with h | h
      · exact .inl (List.mem_cons_of_mem _ h)
      · exact .inr h
    · refine ⟨hedit, fun uid huid => ?_⟩
      rw [if_pos hedit, List.map_append, List.mem_append, List.map_singleton, List.mem_singleton]
      rcases hkept uid huid with h | h
      · obtain ⟨member, hmember, rfl⟩ := List.mem_map.mp h
        obtain ⟨i, hi⟩ := List.mem_iff_getElem?.mp hmember
        by_cases hitem : i = item
        · have hsame : member = removed := Option.some.inj (hi.symm.trans (hitem ▸ hremoved))
          exact .inr (.inr (congrArg _ hsame))
        · have hrest := List.mem_eraseIdx_iff_getElem?.mpr ⟨i, hitem, hi⟩
          exact .inl (List.mem_map_of_mem hrest)
      · exact .inr (.inl h)
  exact (exec_invariant hstep ⟨rfl, fun uid => .inl⟩ selections h).2 uid huid

/-- No two different ids on the screen have the same hash. -/
def DistinctHashes (vc : AddEventVC) (runtime : Runtime) : Prop :=
  ∀ user ∈ vc.members ++ vc.deletedMembers ++ vc.originalMemers,
    ∀ other ∈ vc.members ++ vc.deletedMembers ++ vc.originalMemers,
      runtime.hash user = runtime.hash other → user.userID = other.userID

section DistinctHashes

variable {vc : AddEventVC} {runtime : Runtime} (hdistinct : DistinctHashes vc runtime)

include hdistinct

theorem DistinctHashes.hashes_iff {users : List GUser} {uid : String}
    (husers : ∀ user ∈ users, user ∈ vc.members ++ vc.deletedMembers ++ vc.originalMemers)
    (huid : uid ∈ (vc.members ++ vc.deletedMembers ++ vc.originalMemers).map (·.userID)) :
    Hashes runtime users uid ↔ uid ∈ users.map (·.userID) := by
  constructor
  · intro h
    obtain ⟨user, huser, rfl⟩ := List.mem_map.mp huid
    obtain ⟨other, hother, hhash⟩ := List.mem_map.mp h
    have hsame := hdistinct other (husers other hother) user huser hhash
    exact hsame ▸ List.mem_map_of_mem hother
  · exact Hashes.of_mem runtime

theorem DistinctHashes.represents {users : List GUser} {uid : String}
    (husers : ∀ user ∈ users, user ∈ vc.members ++ vc.deletedMembers ++ vc.originalMemers)
    (huid : uid ∈ users.map (·.userID)) : Represents runtime users uid :=
  Represents.of_mem (fun user huser other hother =>
    hdistinct user (husers user huser) other (husers other hother)) huid

/-- With distinct hashes the difference is submitted when only members were deleted. -/
theorem tellsApart_iff_of_distinctHashes
    (hkept : ∀ uid ∈ vc.originalMemers.map (·.userID),
      uid ∈ vc.members.map (·.userID) ∨ uid ∈ vc.deletedMembers.map (·.userID)) :
    TellsApart runtime vc.members vc.deletedMembers vc.originalMemers ↔
      ∀ uid ∈ vc.deletedMembers.map (·.userID), uid ∈ vc.originalMemers.map (·.userID) := by
  have hmembers : ∀ user ∈ vc.members,
      user ∈ vc.members ++ vc.deletedMembers ++ vc.originalMemers := by simp +contextual
  have hdeleted : ∀ user ∈ vc.deletedMembers,
      user ∈ vc.members ++ vc.deletedMembers ++ vc.originalMemers := by simp +contextual
  have horiginal : ∀ user ∈ vc.originalMemers,
      user ∈ vc.members ++ vc.deletedMembers ++ vc.originalMemers := by simp +contextual
  have hids : ∀ uid, uid ∈ vc.members.map (·.userID) ∨ uid ∈ vc.deletedMembers.map (·.userID) ∨
      uid ∈ vc.originalMemers.map (·.userID) →
      uid ∈ (vc.members ++ vc.deletedMembers ++ vc.originalMemers).map (·.userID) := by
    intro uid huid
    rwa [List.map_append, List.map_append, List.mem_append, List.mem_append, or_assoc]
  constructor
  · intro h uid huid
    by_contra hnot
    have hlisted := h.unlisted uid ⟨huid, hnot⟩ (hdistinct.represents hdeleted huid)
    rw [hdistinct.hashes_iff hmembers (hids uid (.inr (.inl huid)))] at hlisted
    exact (h.added uid ⟨hlisted, hnot⟩).2.1 (Hashes.of_mem runtime huid)
  · intro h
    refine ⟨fun uid hnew => ?_, fun uid hgone => ?_, fun uid hunlisted _ => ?_⟩
    · have huid := hids uid (.inl hnew.1)
      refine ⟨hdistinct.represents hmembers hnew.1, ?_, ?_⟩
      · rw [hdistinct.hashes_iff hdeleted huid]
        exact fun hmem => hnew.2 (h uid hmem)
      · rw [hdistinct.hashes_iff horiginal huid]
        exact hnew.2
    · have huid := hids uid (.inr (.inr hgone.1))
      refine ⟨hdistinct.represents hdeleted ((hkept uid hgone.1).resolve_left hgone.2), ?_⟩
      rw [hdistinct.hashes_iff hmembers huid]
      exact hgone.2
    · exact absurd (h uid hunlisted.1) hunlisted.2

end DistinctHashes

/-- After any selections on the edit screen the completion submits the difference exactly
when an account is signed in, the organiser's record is there if anything changed, and the
sets tell everybody apart; up to equal hashes, when only members were deleted. -/
theorem edit_submits_difference_iff {content : EventContentVC} {selections : List Selection}
    {vc : AddEventVC} (h : exec select (editEvent content) selections = some vc)
    (organiser : Option GUser) (form : Form) (runtime : Runtime) (signedIn : Option String)
    (autoID : String) (newID : Nat → String) (time url : String) :
    (SubmitsDifference content.event vc
      ({ vc with user := organiser, form := form }.uploadEventData runtime signedIn autoID newID
        time url) ↔
      signedIn.isSome ∧ (organiser.isSome ∨ ∀ uid, uid ∈ vc.members.map (·.userID) ↔
        uid ∈ vc.originalMemers.map (·.userID)) ∧
        TellsApart runtime vc.members vc.deletedMembers vc.originalMemers) ∧
    (DistinctHashes vc runtime →
      (TellsApart runtime vc.members vc.deletedMembers vc.originalMemers ↔
        ∀ uid ∈ vc.deletedMembers.map (·.userID), uid ∈ vc.originalMemers.map (·.userID))) := by
  have hevent : vc.event = some content.event := by
    rw [select_frame h]
    rfl
  constructor
  · have hfilled : { vc with user := organiser, form := form }.event = some content.event := hevent
    exact submitsDifference_iff hfilled runtime signedIn autoID newID time url
  · intro hdistinct
    exact tellsApart_iff_of_distinctHashes hdistinct fun uid => original_listed_or_deleted h

def bobJoined : EventContentVC where
  currentUser := "alice"
  event := ⟨"k", "alice", "Party", ["", "bob"], "2018-12-01 12:00", "Taipei", "Bring cake", "k.jpg"⟩
  notification := none
  memberData := [World.bob]

theorem edit_submits_difference_when_kept : ∃ vc,
    exec select (editEvent bobJoined) [.deleteData 0, .didUpdateMember World.carol] = some vc ∧
    SubmitsDifference bobJoined.event vc
      ({ vc with user := some World.alice }.uploadEventData .inOrder (some "alice") "kk"
        AutoId.unary.key "2018-12-01 12:00:00" "k.jpg") := by
  refine ⟨_, rfl, ?_⟩
  have hexact := @edit_submits_difference_iff bobJoined
    [.deleteData 0, .didUpdateMember World.carol] _ rfl (some World.alice)
    (editEvent bobJoined).form .inOrder (some "alice") "kk" AutoId.unary.key "2018-12-01 12:00:00"
    "k.jpg"
  apply hexact.1.mpr
  refine ⟨rfl, .inl rfl, (hexact.2 ?_).mpr ?_⟩
  · unfold DistinctHashes
    decide
  · decide

/-- Carol is added, deleted and added again: she is in the list and is not invited. -/
theorem readded_not_invited : ∃ vc,
    exec select (editEvent bobJoined)
      [.didUpdateMember World.carol, .deleteData 0, .didUpdateMember World.carol] = some vc ∧
    ¬SubmitsDifference bobJoined.event vc
      ({ vc with user := some World.alice }.uploadEventData .inOrder (some "alice") "kk"
        AutoId.unary.key "2018-12-01 12:00:00" "k.jpg") := by
  refine ⟨_, rfl, ?_⟩
  rintro ⟨stored, -, h⟩
  exact (h.invitations "carol" (by decide)).ne_nil (by decide)

end AddEventVC

end GetTogether
