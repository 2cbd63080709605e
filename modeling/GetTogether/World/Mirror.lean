import GetTogether.InvitingMemberVC
import GetTogether.Roster.Invitations
import GetTogether.World.Copies

/-! Who is listed as still to be asked and whose invitation is unanswered are the
same users: every change of the tables keeps the two in step, whatever copy of the
event it is made from. -/
namespace GetTogether

open Realtime Roster

namespace World

variable {ids : AutoId} {w w' : World} {a : Action}

theorem invited_registered (hacc : Accounts w) {uid eventID : String}
    (h : uid ∈ (w.change a).invited eventID) : Registered w.db uid := by
  cases a with
  | uploaded screen runtime time url =>
    simp only [change] at h
    split at h
    · next vc hvc =>
      split at h
      · have hedited := submission_invited vc runtime h
        obtain ⟨user, huser, rfl⟩ := List.mem_map.mp (mem_editedIDs vc runtime hedited).1
        exact (hacc.add vc (List.mem_of_getElem? hvc)).2 user (by simp [huser])
      · exact absurd h List.not_mem_nil
    · exact absurd h List.not_mem_nil
  | agree screen => simp only [change] at h; split at h <;> exact absurd h List.not_mem_nil
  | reject screen => simp only [change] at h; split at h <;> exact absurd h List.not_mem_nil
  | dropOut screen time => simp only [change] at h; split at h <;> exact absurd h List.not_mem_nil
  | _ => exact absurd h List.not_mem_nil

structure Mirror (w : World) : Prop where
  mirrored : (tables w.db).Mirrored
  registered : ∀ uid eventID, ((tables w.db).invitingEventList uid eventID).pending = true →
    Registered w.db uid

theorem Mirror.empty : Mirror empty where
  mirrored eventID uid := by
    simp [World.empty, Store.string?, Store.bool?]
  registered uid eventID h := by
    simp [World.empty, Store.bool?] at h

theorem Mirror.step (hmir : Mirror w) (hacc : Accounts w) (h : Step ids w a w') : Mirror w' where
  mirrored := h.tables_eq ▸ Change.mirrored (w.change a) hmir.mirrored
  registered uid eventID hpending := by
    rw [h.tables_eq] at hpending
    apply h.registered
    rcases Change.pending_apply (w.change a) hpending with hold | hnew
    · exact hmir.registered uid eventID hold
    · exact invited_registered hacc hnew

theorem mirror_reachable (h : Reachable (step ids) World.empty w) : Mirror w := by
  refine (h.invariant (fun w => Reachable (step ids) World.empty w ∧ Mirror w)
    ⟨Reachable.refl _, Mirror.empty⟩ ?_).2
  intro s a s' ⟨hs, hmir⟩ hstep
  exact ⟨hs.tail hstep, hmir.step (accounts_reachable hs) (Step.of_step ids hstep)⟩

theorem contains_invitingMember {db : Store} (hdb : db.Within Schema) (eventID uid : String) :
    db.contains ["invitingMemberList", eventID, uid] = true ↔
      db.string? ["invitingMemberList", eventID, uid, "invitingMemberID"] = some uid := by
  rw [Store.contains_iff, Store.string?_eq_some]
  constructor
  · intro ⟨rest, value, hget⟩
    obtain ⟨rfl, rfl⟩ := Schema.invitingMember_path (hdb _ _ hget)
    exact hget
  · exact fun hget => ⟨["invitingMemberID"], _, hget⟩

theorem contains_iff_listed {db : Store} (hdb : db.Within Schema) (eventID uid : String) :
    db.contains ["invitingMemberList", eventID, uid] = true ↔
      ((tables db).invitingMemberList eventID uid).isSome = true := by
  rw [contains_invitingMember hdb, invitingMemberList_tables]
  constructor
  · exact fun h => Option.isSome_of_eq_some h
  · intro h
    obtain ⟨value, hvalue⟩ := Option.isSome_iff_exists.mp h
    have hkey := (Schema.invitingMember_path (hdb _ _ (Store.string?_eq_some.mp hvalue))).2
    exact hvalue.trans (congrArg some (Scalar.string.inj hkey))

theorem contains_iff_pending {db : Store} (hdb : db.Within Schema) (hmir : (tables db).Mirrored)
    (eventID uid : String) : db.contains ["invitingMemberList", eventID, uid] = true ↔
      db.bool? ["invitingEventList", uid, eventID, "isReply"] = some false := by
  rw [contains_iff_listed hdb, hmir eventID uid, pending_tables]

theorem string?_of_child {db : Store} (hdb : db.Within Schema) {eventID key : String}
    (h : key ∈ db.children ["invitingMemberList", eventID]) :
    db.string? ["invitingMemberList", eventID, key, "invitingMemberID"] = some key := by
  rw [Store.mem_children_iff_contains] at h
  exact (contains_invitingMember hdb eventID key).mp h

theorem fetchUser_of_registered {db : Store} {uid : String} (h : Registered db uid) :
    InvitingMemberVC.fetchUser db uid = some (GUser.read db ["user", uid]) := by
  obtain ⟨user, hread⟩ := Option.isSome_iff_exists.mp h
  have hnode : db.contains ["user", uid] = true := by
    rw [Store.contains_iff]
    exact ⟨["userID"], _, (GUser.read_eq_some.mp hread).1⟩
  rw [InvitingMemberVC.fetchUser, if_pos hnode, hread]
  rfl

theorem queryInvitingMemberData_eq {db : Store} (hdb : db.Within Schema) {eventID : String}
    (hregistered : ∀ uid ∈ db.children ["invitingMemberList", eventID], Registered db uid) :
    InvitingMemberVC.queryInvitingMemberData db eventID =
      some ((db.children ["invitingMemberList", eventID]).filterMap
        fun uid => GUser.read db ["user", uid]) := by
  have hids : InvitingMemberVC.invitingMemberIDs db eventID =
      some (db.children ["invitingMemberList", eventID]) := by
    rw [InvitingMemberVC.invitingMemberIDs, mapM_eq_map fun key hkey => string?_of_child hdb hkey,
      List.map_id']
  have hfetches := mapM_eq_map fun uid huid => fetchUser_of_registered (hregistered uid huid)
  rw [InvitingMemberVC.queryInvitingMemberData, hids, Option.bind_eq_bind, Option.bind_some, hfetches]
  simp [List.reduceOption, List.filterMap_map]

theorem mem_records {db : Store} (hdb : db.Within Schema) {uids : List String}
    (hregistered : ∀ uid ∈ uids, Registered db uid) (uid : String) :
    uid ∈ (uids.filterMap fun uid => GUser.read db ["user", uid]).map (·.userID) ↔ uid ∈ uids := by
  rw [List.mem_map]
  constructor
  · intro h
    obtain ⟨user, huser, rfl⟩ := h
    obtain ⟨key, hkey, hread⟩ := List.mem_filterMap.mp huser
    rwa [(GUser.userID_of_read hdb hread).1]
  · intro huid
    obtain ⟨user, hread⟩ := Option.isSome_iff_exists.mp (hregistered uid huid)
    exact ⟨user, List.mem_filterMap.mpr ⟨uid, huid, hread⟩, (GUser.userID_of_read hdb hread).1⟩

theorem registered_of_listed (h : Reachable (step ids) World.empty w) {eventID : String} :
    ∀ uid ∈ w.db.children ["invitingMemberList", eventID], Registered w.db uid := by
  intro uid huid
  have hmir := mirror_reachable h
  rw [Store.mem_children_iff_contains] at huid
  apply hmir.registered uid eventID
  rw [pending_tables, ← contains_iff_pending (within_schema h) hmir.mirrored]
  exact huid

/-- In every reachable state a user is listed below an event exactly when their
invitation to it is unanswered, and exactly those users are shown. -/
theorem pending_indexes_mirror (ids : AutoId) (w : World)
    (h : Reachable (step ids) World.empty w) (eventID : String) :
    (∀ uid, w.db.contains ["invitingMemberList", eventID, uid] = true ↔
      w.db.bool? ["invitingEventList", uid, eventID, "isReply"] = some false) ∧
    ∃ users, InvitingMemberVC.queryInvitingMemberData w.db eventID = some users ∧
      ∀ uid, uid ∈ users.map (·.userID) ↔
        w.db.bool? ["invitingEventList", uid, eventID, "isReply"] = some false := by
  have hdb := within_schema h
  have hmir := mirror_reachable h
  have hiff := contains_iff_pending hdb hmir.mirrored eventID
  refine ⟨hiff, ?_⟩
  refine ⟨_, queryInvitingMemberData_eq hdb (registered_of_listed h), fun uid => ?_⟩
  rw [mem_records hdb (registered_of_listed h), Store.mem_children_iff_contains]
  exact hiff uid

theorem pending_indexes_mirror_creation :
    ∃ w, exec (step .unary) World.empty creation = some w ∧
      w.db.contains ["invitingMemberList", "k", "bob"] = true ∧
      w.db.bool? ["invitingEventList", "bob", "k", "isReply"] = some false := by
  have hrun : ((exec (step .unary) World.empty creation).any fun w =>
      w.db.contains ["invitingMemberList", "k", "bob"]) = true := by decide
  obtain ⟨w, hw, hnode⟩ := (Option.any_eq_true _ _).mp hrun
  exact ⟨w, hw, hnode, ((pending_indexes_mirror .unary w ⟨creation, hw⟩ "k").1 "bob").mp hnode⟩

end World

end GetTogether
