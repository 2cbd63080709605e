import GetTogether.Feed.Progress
import GetTogether.Feed.Searching
import GetTogether.World.Consent

/-! The tables refer to each other by ids. In every reachable state these resolve: whoever
is invited or has joined has a user record, and what is told or said is about a stored
event. So an event screen shows exactly the members of its event. -/
namespace GetTogether

open Realtime Roster

namespace Feed

variable {ids : AutoId} {f f' : Feed} {a : Action}

/-- Whoever has an invitation record has a user record. -/
def Invited (db : Store) : Prop :=
  ∀ uid eventID, (tables db).Recorded uid eventID → Registered db uid

/-- Every comment is about an event that has an organiser. -/
def Discussed (db : Store) : Prop :=
  ∀ eventID commentID, db.contains ["comment", eventID, commentID] = true →
    ∃ organiserID, OrganisedBy db eventID organiserID

theorem Step.invited (hgov : Governed ids f) (h : Step ids f a f') (hinvited : Invited f.world.db) :
    Invited f'.world.db := by
  intro uid eventID hrecorded
  rw [tables_bare] at hrecorded
  by_cases hbase : ∃ action, a = .base action
  · obtain ⟨action, rfl⟩ := hbase
    apply h.registered
    cases h with
    | base hstep =>
      rcases hstep.bare.recorded_cases hgov.lawful.accounts hgov.lawful.enrolled hrecorded with
        hold | ⟨screen, runtime, time, url, vc, autoID, -, hvc, -, -, user, huser, rfl⟩
      · rw [← tables_bare] at hold
        exact hinvited uid eventID hold
      · have hadd := (hgov.lawful.accounts.add vc (List.mem_of_getElem? hvc)).2 user
        exact (World.same_of_bare _).registered (hadd (List.mem_append_left _ huser))
  · have hbase : ∀ action, a ≠ .base action := fun action ha => hbase ⟨action, ha⟩
    apply h.registered
    obtain ⟨count, heq⟩ := h.world_eq hbase
    rw [heq, (same_of_aside (h.issued_aside hbase) count).tables_eq, ← tables_bare] at hrecorded
    exact hinvited uid eventID hrecorded

theorem said_event {comment : Comment} (h : .said comment ∈ f.remarks ids a) :
    ∃ s ∈ f.commentVCs, comment.eventID = s.vc.event.eventID := by
  unfold remarks at h
  split at h
  · split at h
    · obtain ⟨found, -, hfound⟩ := Option.map_eq_some_iff.mp (Option.mem_toList.mp h)
      cases hfound
    · exact absurd h List.not_mem_nil
  · split at h
    · next s hs =>
      obtain ⟨currentUser, -, hsaid⟩ := Option.map_eq_some_iff.mp (Option.mem_toList.mp h)
      rw [← Remark.said.inj hsaid]
      exact ⟨s, List.mem_of_getElem? hs, rfl⟩
    · exact absurd h List.not_mem_nil
  · exact absurd h List.not_mem_nil

theorem Step.discussed (hgov : Governed ids f) (hknown : Known f) (h : Step ids f a f')
    (hdiscussed : Discussed f.world.db) : Discussed f'.world.db := by
  have hold : ∀ {eventID commentID}, f.world.db.contains ["comment", eventID, commentID] = true →
      ∃ organiserID, OrganisedBy f'.world.db eventID organiserID := by
    intro eventID commentID hnode
    obtain ⟨organiserID, hby⟩ := hdiscussed eventID commentID hnode
    exact ⟨organiserID, (h.keeps hgov.lawful).organiser eventID organiserID hby⟩
  intro eventID commentID hnode
  rcases h.remarks_cases with ⟨-, hsame⟩ | ⟨comment, hsaid, -, -, -, hdb⟩ | ⟨e, id, -, -, hdb⟩
  · rw [Store.contains_of_get_eq fun rest => hsame _] at hnode
    exact hold hnode
  · by_cases hthis : comment.eventID = eventID ∧ comment.commentID = commentID
    · obtain ⟨s, hs, hevent⟩ := said_event (hsaid ▸ List.mem_singleton_self _)
      have hby := (h.keeps hgov.lawful).organiser _ _ (hknown.comment s hs).1
      rw [← hevent, hthis.1] at hby
      exact ⟨_, hby⟩
    · have hget : ∀ rest, f'.world.db.get (["comment", eventID, commentID] ++ rest) =
          f.world.db.get (["comment", eventID, commentID] ++ rest) := by
        intro rest
        rw [hdb, Write.get_apply]
        simp [hthis]
      rw [Store.contains_of_get_eq hget] at hnode
      exact hold hnode
  · obtain ⟨rest, value, hleaf⟩ := (Store.contains_iff _ _).mp hnode
    have hbefore : f.world.db.get (["comment", eventID, commentID] ++ rest) = some value := by
      rw [hdb, Write.get_apply] at hleaf
      by_cases hthis : e = eventID ∧ id = commentID <;> simp [hthis] at hleaf ⊢
      exact hleaf
    exact hold ((Store.contains_iff _ _).mpr ⟨rest, value, hbefore⟩)

theorem references_reachable (h : Reachable (step ids) empty f) :
    Invited f.world.db ∧ Discussed f.world.db := by
  refine (h.invariant (fun f => Reachable (step ids) empty f ∧ Invited f.world.db ∧
    Discussed f.world.db) ⟨.refl _, ?_, ?_⟩ ?_).2
  · intro uid eventID hrecorded
    simp [Tables.Recorded, tables, Feed.empty, World.empty, Store.string?, Store.bool?,
      Invitation.exists?] at hrecorded
  · intro eventID commentID hnode
    simp [Feed.empty, World.empty, Store.empty, Store.contains] at hnode
  · intro s a s' hs hstep
    obtain ⟨hreach, hinvited, hdiscussed⟩ := hs
    obtain ⟨hgov, hknown⟩ := known_reachable hreach
    have hstep' := Step.of_step ids hstep
    exact ⟨hreach.tail hstep, hstep'.invited hgov hinvited, hstep'.discussed hgov hknown hdiscussed⟩

/-- Every id that one table holds of another is the key of a record there. -/
structure References (db : Store) : Prop where
  invitation : ∀ uid eventID, db.contains ["invitingEventList", uid, eventID] = true →
    Registered db uid
  listed : ∀ eventID uid, db.contains ["invitingMemberList", eventID, uid] = true →
    Registered db uid ∧ db.contains ["invitingEventList", uid, eventID] = true
  member : ∀ eventID event, Event.read db ["event", eventID] = some event →
    ∀ uid ∈ event.memberIDs, uid ≠ "" →
      Registered db uid ∧ db.contains ["invitingEventList", uid, eventID] = true
  notification : ∀ id notification, GNotification.read db ["notification", id] =
    some notification → ∃ event, Event.read db ["event", notification.eventID] = some event ∧
      (notification.userID = event.organiserID ∨ Registered db notification.userID)
  comment : ∀ eventID commentID, db.contains ["comment", eventID, commentID] = true →
    ∃ event, Event.read db ["event", eventID] = some event

theorem recorded_iff (hgov : Governed ids f) (uid eventID : String) :
    f.world.db.contains ["invitingEventList", uid, eventID] = true ↔
      (tables f.world.db).Recorded uid eventID := by
  have hne : "invitingEventList" ≠ "comment" := by decide
  rw [← Store.contains_hide hne, tables_bare]
  exact World.contains_iff_recorded hgov.lawful.schema uid eventID

/-- In every reachable state all references between the tables resolve. -/
theorem references_resolve (ids : AutoId) (f : Feed) (h : Reachable (step ids) Feed.empty f) :
    References f.world.db := by
  obtain ⟨hgov, hknown⟩ := known_reachable h
  obtain ⟨hinvited, hdiscussed⟩ := references_reachable h
  have hrecord := recorded_iff hgov
  have hpending := (mirror_reachable h).mirrored
  have hstored : ∀ {eventID organiserID}, OrganisedBy f.world.db eventID organiserID →
      ∃ event, Event.read f.world.db ["event", eventID] = some event ∧
        event.organiserID = organiserID := by
    intro eventID organiserID hby
    obtain ⟨event, hread, -, hstored, -⟩ := hknown.read_event hgov (node_of_organiser hby)
    exact ⟨event, hread, by simpa using hstored.symm.trans hby⟩
  constructor
  · intro uid eventID hnode
    exact hinvited uid eventID ((hrecord uid eventID).mp hnode)
  · intro eventID uid hnode
    have hne : "invitingMemberList" ≠ "comment" := by decide
    rw [← Store.contains_hide hne] at hnode
    have hasked := (World.contains_iff_listed hgov.lawful.schema eventID uid).mp hnode
    rw [hpending eventID uid] at hasked
    have hrecorded := Tables.recorded_of_pending hasked
    rw [← tables_bare] at hrecorded
    exact ⟨hinvited uid eventID hrecorded, (hrecord uid eventID).mpr hrecorded⟩
  · intro eventID event hread uid hmember hne
    have hmembers : (tables f.world.db).memberIDs eventID = event.memberIDs :=
      congrArg (·.getD []) (Store.array?_eq_some.mpr (Event.read_eq_some.mp hread).2.2.2.1)
    have hrecorded : (tables f.world.db).Recorded uid eventID := by
      rw [tables_bare]
      apply hgov.lawful.enrolled.stored eventID uid _ hne
      rw [← tables_bare, hmembers]
      exact hmember
    exact ⟨hinvited uid eventID hrecorded, (hrecord uid eventID).mpr hrecorded⟩
  · intro id notification hread
    obtain ⟨organiserID, hby, hwho⟩ := hknown.stored id notification hread
    obtain ⟨event, hevent, rfl⟩ := hstored hby
    exact ⟨event, hevent, hwho.imp_right (hinvited _ _)⟩
  · intro eventID commentID hnode
    obtain ⟨organiserID, hby⟩ := hdiscussed eventID commentID hnode
    obtain ⟨event, hread, -⟩ := hstored hby
    exact ⟨event, hread⟩

/-- Bob has joined the event of Alice. -/
theorem references_resolve_joined : ∃ f, exec (step .unary) Feed.empty joined = some f ∧
    f.world.db.contains ["invitingEventList", "bob", "k"] = true ∧ Registered f.world.db "bob" := by
  have hrun : ((exec (step .unary) Feed.empty joined).any fun f =>
      f.world.db.contains ["invitingEventList", "bob", "k"]) = true := by decide
  obtain ⟨f, hf, hnode⟩ := (Option.any_eq_true _ _).mp hrun
  have hreferences := references_resolve .unary f ⟨joined, hf⟩
  exact ⟨f, hf, hnode, hreferences.invitation "bob" "k" hnode⟩

theorem read_users (h : Reachable (step ids) empty f) : ∃ users,
    ((f.world.db.children ["user"]).mapM fun uid => GUser.read f.world.db ["user", uid]) =
      some users ∧ (users.map (·.userID)).Nodup ∧
      ∀ user, user ∈ users ↔ GUser.read f.world.db ["user", user.userID] = some user := by
  apply Store.readTable
  · intro uid hchild
    rw [Store.mem_children_iff_contains] at hchild
    obtain ⟨user, hread, hid, -⟩ := read_user h hchild
    exact ⟨user, hread, hid⟩
  · intro uid user hread
    rw [Store.mem_children_iff_contains]
    exact contains_of_registered (Option.isSome_of_eq_some hread)

/-- On any event screen the users can come back at any time, and if the organiser has a record
the screen then shows the members it was opened with, each once and as stored now; if not,
it shows what it did before. -/
theorem event_screen_shows_members (ids : AutoId) (f : Feed)
    (h : Reachable (step ids) Feed.empty f) (vc : EventContentVC) (hvc : vc ∈ f.world.contentVCs) :
    ∃ vc', vc.queryUserData f.world.db = some vc' ∧
      (Registered f.world.db vc.event.organiserID → (vc'.memberData.map (·.userID)).Nodup ∧
        (∀ uid, uid ∈ vc'.memberData.map (·.userID) ↔ uid ∈ vc.event.memberIDs ∧ uid ≠ "") ∧
        ∀ user ∈ vc'.memberData, GUser.read f.world.db ["user", user.userID] = some user) ∧
      (¬Registered f.world.db vc.event.organiserID → vc' = vc) := by
  obtain ⟨users, husers, hnodup, hmem⟩ := read_users h
  obtain ⟨hgov, -⟩ := known_reachable h
  have hguest : ∀ uid ∈ vc.event.memberIDs, uid ≠ "" → Registered f.world.db uid := by
    intro uid hmember hne
    apply (references_reachable h).1 uid vc.event.eventID
    rw [tables_bare]
    exact hgov.lawful.enrolled.held _ _ (.content (w := f.world.bare) hvc) uid hmember hne
  have hfound : users.any (·.userID = vc.event.organiserID) = true ↔
      Registered f.world.db vc.event.organiserID := by
    rw [List.any_eq_true]
    constructor
    · intro h
      obtain ⟨user, huser, hid⟩ := h
      rw [← of_decide_eq_true hid]
      exact Option.isSome_of_eq_some ((hmem user).mp huser)
    · intro hregistered
      obtain ⟨user, hread, hid, -⟩ := read_user h (contains_of_registered hregistered)
      exact ⟨user, (hmem user).mpr (hid ▸ hread), decide_eq_true hid⟩
  by_cases hregistered : Registered f.world.db vc.event.organiserID
  · refine ⟨{ vc with memberData := users.filter (·.userID ∈ vc.event.memberIDs) }, ?_, ?_,
      fun hnone => absurd hregistered hnone⟩
    · simp only [EventContentVC.queryUserData, husers, hfound.mpr hregistered, Option.bind_eq_bind,
        Option.bind_some, if_true, Option.pure_def]
    · intro _
      refine ⟨hnodup.sublist (List.filter_sublist.map _), fun uid => ?_, fun user huser => ?_⟩
      · rw [List.mem_map]
        constructor
        · intro h'
          obtain ⟨user, huser, rfl⟩ := h'
          obtain ⟨huser, hmember⟩ := List.mem_filter.mp huser
          obtain ⟨_, -, -, hne⟩ :=
            read_user h (contains_of_registered (Option.isSome_of_eq_some ((hmem user).mp huser)))
          exact ⟨of_decide_eq_true hmember, hne⟩
        · intro h'
          obtain ⟨user, hread, rfl, -⟩ :=
            read_user h (contains_of_registered (hguest uid h'.1 h'.2))
          exact ⟨user, List.mem_filter.mpr ⟨(hmem user).mpr hread, decide_eq_true h'.1⟩, rfl⟩
      · exact (hmem user).mp (List.mem_filter.mp huser).1
  · refine ⟨vc, ?_, fun hsome => absurd hsome hregistered, fun _ => rfl⟩
    have hnone : users.any (·.userID = vc.event.organiserID) = false := by
      rw [← Bool.not_eq_true, hfound]
      exact hregistered
    simp only [EventContentVC.queryUserData, husers, hnone, Option.bind_eq_bind, Option.bind_some,
      Bool.false_eq_true, if_false, Option.pure_def]

/-- Alice opens the event that Bob has joined. -/
theorem event_screen_shows_members_joined : ∃ (f : Feed) (vc vc' : EventContentVC),
    exec (step .unary) Feed.empty (joined ++ [.base (.openEvent "alice" "k" none)]) = some f ∧
      vc.queryUserData f.world.db = some vc' ∧ "bob" ∈ vc'.memberData.map (·.userID) := by
  have hrun : ((exec (step .unary) Feed.empty
      (joined ++ [.base (.openEvent "alice" "k" none)])).any fun f =>
        f.world.contentVCs.getLast?.any fun vc => vc.event.memberIDs = ["", "bob"] ∧
          (GUser.read f.world.db ["user", vc.event.organiserID]).isSome = true) = true := by decide
  obtain ⟨f, hf, hlast⟩ := (Option.any_eq_true _ _).mp hrun
  obtain ⟨vc, hvc, hopened⟩ := (Option.any_eq_true _ _).mp hlast
  obtain ⟨hmembers, hregistered⟩ := of_decide_eq_true hopened
  obtain ⟨vc', hload, hshown, -⟩ :=
    event_screen_shows_members .unary f ⟨_, hf⟩ vc (List.mem_of_getLast? hvc)
  refine ⟨f, vc, vc', hf, hload, ((hshown hregistered).2.1 "bob").mpr ⟨?_, by decide⟩⟩
  simp [hmembers]

end Feed

end GetTogether
