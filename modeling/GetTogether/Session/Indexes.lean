import GetTogether.Roster.Agreement
import GetTogether.Session.Rules

/-! Whether the member arrays and the invitations agree, when everyone works on fully
loaded screens and one after another. An edit may mark as removed someone who has not
answered yet; the answer yes then adds a member whose invitation says otherwise. -/
namespace GetTogether.Session

open Realtime Roster

/-- A user, other than the empty one, is in the array of an event exactly when their
invitation to it is answered and says member. -/
def IndexesAgree (s : Session) : Prop :=
  ∀ eventID uid, uid ≠ "" →
    (uid ∈ (s.db.array? ["event", eventID, "memberIDs"]).getD [] ↔
      s.db.bool? ["invitingEventList", uid, eventID, "isReply"] = some true ∧
      s.db.bool? ["invitingEventList", uid, eventID, "isMember"] = some true)

/-- No member is told, on opening the event, that they are no longer one. -/
def MembersWelcome (s : Session) : Prop :=
  ∀ uid eventID notificationID time autoID row vc, s.opened uid eventID notificationID = some row →
    row.loaded s.db time autoID = some vc →
    uid ∈ (s.db.array? ["event", eventID, "memberIDs"]).getD [] → vc.noLongerMember = false

/-- An invitation that is accepted has not been marked as removed. -/
def AcceptsMember (s : Session) : Operation → Prop
  | .accept uid eventID _ _ =>
    s.db.bool? ["invitingEventList", uid, eventID, "isMember"] = some true
  | _ => True

variable {ids : AutoId} {s s' : Session}

theorem indexesAgree_iff : s.IndexesAgree ↔ (tables s.db).Agree (· ≠ "") := by
  simp only [IndexesAgree, Tables.Agree, Invitation.joined_iff]
  rfl

theorem membersWelcome (hs : Sound ids s) (h : s.IndexesAgree) : s.MembersWelcome := by
  intro uid eventID notificationID time autoID row vc hrow hvc hmember
  obtain ⟨huid, event, notification, hread, rfl⟩ := opened_eq_some hrow
  have hjoined := ((h eventID uid huid).mp hmember).2
  cases hflag : vc.noLongerMember with
  | false => rfl
  | true =>
    have hleft := EventContentVC.loaded_noLongerMember hs.schema hvc hflag
    rw [Event.eventID_of_read hs.schema hread, hjoined] at hleft
    exact absurd hleft (by decide)

theorem Editing.not_member (hs : Sound ids s) {uid eventID : String} {vc : AddEventVC}
    (hvc : Editing s uid eventID true vc) {runtime : Runtime} {invited : String}
    (h : invited ∈ editedIDs vc runtime) : invited ∉ (tables s.db).memberIDs eventID := by
  intro hmember
  obtain ⟨event, hread, hevent, -⟩ := hvc.event
  rw [memberIDs_of_read hread] at hmember
  have hregistered := hs.users _ (hvc.edited runtime h).2.2
  exact (mem_editedIDs vc runtime h).2.2 (hvc.loaded rfl event hevent invited hmember hregistered)

/-- One fully loaded operation keeps the indexes in step exactly when, if it is an
accept, the invitation says member. -/
theorem agree_step_iff (hs : Sound ids s) (hagree : (tables s.db).Agree (· ≠ ""))
    {op : Operation} (hloaded : op.fullyLoaded = true) {change : Change String String}
    (h : Does ids s op change) :
    (change.apply (tables s.db)).Agree (· ≠ "") ↔ s.AcceptsMember op := by
  cases h with
  | saveUser => exact iff_of_true hagree trivial
  | @create uid now entry vc _ hvc =>
    refine iff_of_true (Tables.agree_submit hagree _ _ _ _ ?_ ?_) trivial
    · intro user huser
      simp [hs.undrawn.1, huser]
    · intro user _ _
      simp [hs.undrawn.1]
  | @edit uid eventID notificationID membersLoaded entry vc hscreen hvc =>
    cases hloaded
    obtain ⟨event, hread, hevent, -⟩ := hvc.event
    refine iff_of_true (Tables.agree_submit hagree _ _ _ _ ?_ ?_) trivial
    · intro user huser
      rw [mem_finalMemberIDs vc _ hevent, memberIDs_of_read hread]
    · exact fun user huser _ => hvc.not_member hs huser
  | accept huid hpending => exact Tables.agree_accept_iff hagree _ _ huid
  | reject hpending =>
    exact iff_of_true (Tables.agree_reject hagree _ _ ((pending_tables _ _ _).mpr hpending)) trivial
  | dropOut huid hmember => exact iff_of_true (Tables.agree_dropOut hagree _ _) trivial

/-- In every state of a run of fully loaded operations the two indexes agree, and no
member is told otherwise, exactly when the run accepts no invitation that an edit has
marked as removed. -/
theorem indexes_agree_iff (ids : AutoId) (ops : List Operation) :
    Always (loadedStep ids) (fun s => s.IndexesAgree ∧ s.MembersWelcome) empty ops ↔
      EachStep (loadedStep ids) AcceptsMember empty ops := by
  have hstep : ∀ {s op s'}, loadedStep ids s op = some s' →
      op.fullyLoaded = true ∧ step ids s op = some s' := by
    intro s op s' h
    simpa only [loadedStep, Option.ite_none_right_eq_some] using h
  have hempty : empty.IndexesAgree := by
    intro eventID uid _
    simp [Session.empty, Store.array?, Store.bool?]
  refine always_iff_eachStep (Sound ids) ?_ ?_ (Sound.empty ids)
    ⟨hempty, membersWelcome (Sound.empty ids) hempty⟩ ops
  · intro s op s' hs hagree h
    obtain ⟨hloaded, h⟩ := hstep h
    obtain ⟨change, hdoes, htables⟩ := does_of_step hs.schema hs.users h
    have hwelcome := membersWelcome (hs.step h)
    rw [and_iff_left_of_imp hwelcome, indexesAgree_iff, htables]
    exact agree_step_iff hs (indexesAgree_iff.mp hagree.1) hloaded hdoes
  · exact fun s op s' hs _ _ h => hs.step (hstep h).2

open World (bob party)

/-- Alice edits the event before Bob has answered, adds him again and deletes him;
then Bob accepts. -/
def addedAndDeleted : List Operation :=
  invitation ++
    [.edit "alice" "k" none true
      ⟨[.add bob, .delete 0], party, .inOrder, "2018-12-02", "party.jpg"⟩,
    .accept "bob" "k" (some "kk") "2018-12-03"]

/-- Bob is a member whose own invitation says that he is not. -/
theorem indexes_disagree : ∃ s, exec (loadedStep .unary) empty addedAndDeleted = some s ∧
    "bob" ∈ (s.db.array? ["event", "k", "memberIDs"]).getD [] ∧
    s.db.bool? ["invitingEventList", "bob", "k", "isReply"] = some true ∧
    s.db.bool? ["invitingEventList", "bob", "k", "isMember"] = some false := by
  have hrun : ((exec (loadedStep .unary) empty addedAndDeleted).any fun s =>
      "bob" ∈ (s.db.array? ["event", "k", "memberIDs"]).getD [] ∧
      s.db.bool? ["invitingEventList", "bob", "k", "isReply"] = some true ∧
      s.db.bool? ["invitingEventList", "bob", "k", "isMember"] = some false) = true := by decide
  obtain ⟨s, hs, hbob⟩ := (Option.any_eq_true _ _).mp hrun
  exact ⟨s, hs, of_decide_eq_true hbob⟩

end GetTogether.Session
