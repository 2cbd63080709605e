import GetTogether.World.Mirror

/-! Whoever is listed below an event ends up on the screen of the pending invitees, in
whatever order the fetches come back and whatever the other users do meanwhile. -/
namespace GetTogether.World

open Realtime InvitingMemberVC

variable {ids : AutoId} {w : World}

theorem castable_of_reachable (h : Reachable (step ids) World.empty w) (uid : String) :
    Castable w.db uid := by
  intro hdictionary
  apply (accounts_reachable h).stored
  rw [isDictionary_iff] at hdictionary
  obtain ⟨key, rest, value, hget⟩ := hdictionary
  rw [Store.contains_iff]
  exact ⟨key :: rest, value, hget⟩

/-- Every invitation and every reply writes or removes a whole node with its id, so the
loop starts a fetch for each node and never returns early. -/
theorem listed_of_within (hdb : w.db.Within Schema) (eventID : String) :
    listed w.db eventID =
      { fetches := w.db.children ["invitingMemberList", eventID], ending := .finished } := by
  unfold listed
  rw [startFetches_eq fun key hkey => string?_of_child hdb hkey]

theorem nodup_records {read : String → Option GUser}
    (hread : ∀ uid user, read uid = some user → user.userID = uid) {uids : List String}
    (huids : uids.Nodup) : ((uids.filterMap read).map (·.userID)).Nodup := by
  rw [List.map_filterMap]
  apply huids.filterMap
  intro uid other id huid hother
  obtain ⟨user, huser, rfl⟩ := Option.map_eq_some_iff.mp huid
  obtain ⟨found, hfound, hid⟩ := Option.map_eq_some_iff.mp hother
  rw [← hread uid user huser, ← hread other found hfound, hid]

section Run

variable {eventID : String} {later : String → World} {order : List Nat} {final : InvitingMemberVC}

theorem gathered_of_reachable (h : Reachable (step ids) World.empty w)
    (hlater : ∀ uid, Reachable (step ids) w (later uid))
    (hrun : exec (InvitingMemberVC.step fun uid => (later uid).db) (listed w.db eventID) order =
      some final) :
    final.ending = .finished ∧ (final.fetches = [] →
      final.invitingMemberData.Perm ((w.db.children ["invitingMemberList", eventID]).filterMap
        fun uid => GUser.read (later uid).db ["user", uid])) := by
  rw [listed_of_within (within_schema h)] at hrun
  obtain ⟨hending, hgather⟩ :=
    exec_gathering (fun uid => castable_of_reachable (h.trans (hlater uid)) uid) rfl hrun
  exact ⟨hending, fun hdone => Gathering.gathered_perm hgather hdone⟩

end Run

/-- When all fetches have come back, the screen holds the records of exactly the listed
users that have one. -/
theorem pending_invitees_listed (ids : AutoId) (w : World)
    (h : Reachable (step ids) World.empty w) (eventID : String) (later : String → World)
    (hlater : ∀ uid, Reachable (step ids) w (later uid)) (order : List Nat)
    (final : InvitingMemberVC)
    (hrun : exec (InvitingMemberVC.step fun uid => (later uid).db) (listed w.db eventID) order =
      some final) :
    (listed w.db eventID).fetches = w.db.children ["invitingMemberList", eventID] ∧
    final.ending = .finished ∧
    (∀ index < final.fetches.length,
      (final.step (fun uid => (later uid).db) index).isSome = true) ∧
    (final.fetches = [] →
      final.invitingMemberData.Perm ((w.db.children ["invitingMemberList", eventID]).filterMap
        fun uid => GUser.read (later uid).db ["user", uid]) ∧
      (final.invitingMemberData.map (·.userID)).Nodup) := by
  obtain ⟨hending, hgathered⟩ := gathered_of_reachable h hlater hrun
  refine ⟨by rw [listed_of_within (within_schema h)], hending, ?_, fun hdone => ?_⟩
  · intro index hindex
    simp [InvitingMemberVC.step, hending, hindex]
  · refine ⟨hgathered hdone, ?_⟩
    rw [((hgathered hdone).map _).nodup_iff]
    apply nodup_records
    · intro uid user hread
      exact (GUser.userID_of_read (within_schema (h.trans (hlater uid))) hread).1
    · exact Store.nodup_children _ _

def invitations : List Action :=
  [.saveUser alice, .saveUser bob, .saveUser carol, .newEvent "alice" "2018-12-01 12:00",
    .queryOrganiserData 0, .didUpdateMember 0 bob, .didUpdateMember 0 carol, .fillIn 0 party,
    .done 0, .uploaded 0 .inOrder "2018-12-01" "party.jpg"]

theorem pending_invitees_listed_backwards :
    ∃ w final, exec (step .unary) World.empty invitations = some w ∧
      exec (InvitingMemberVC.step fun _ => w.db) (listed w.db "k") [1, 0] = some final ∧
      final.fetches = [] ∧ final.invitingMemberData = [carol, bob] ∧
      final.invitingMemberData.Perm ((w.db.children ["invitingMemberList", "k"]).filterMap
        fun uid => GUser.read w.db ["user", uid]) := by
  have hrun : ((exec (step .unary) World.empty invitations).any fun w =>
      (exec (InvitingMemberVC.step fun _ => w.db) (listed w.db "k") [1, 0]).any fun final =>
        decide (final.fetches = [] ∧ final.invitingMemberData = [carol, bob])) = true := by decide
  obtain ⟨w, hw, hfetches⟩ := (Option.any_eq_true _ _).mp hrun
  obtain ⟨final, hfinal, hdone⟩ := (Option.any_eq_true _ _).mp hfetches
  obtain ⟨hdone, hdata⟩ := of_decide_eq_true hdone
  have hlisted := pending_invitees_listed .unary w ⟨invitations, hw⟩ "k" (fun _ => w)
    (fun _ => Reachable.refl w) [1, 0] final hfinal
  exact ⟨w, final, hw, hfinal, hdone, hdata, (hlisted.2.2.2 hdone).1⟩

end GetTogether.World
