import GetTogether.CommentVC
import GetTogether.Recipients
import GetTogether.World.Writes

/-! Whom a comment is told. The members the comment screen was opened with are those the
event screen had loaded; the organiser is not among them, and the sender is left out. -/
namespace GetTogether

open Realtime

namespace CommentVC

/-- `prepare(for:)` of the event screen. -/
def prepared (vc : EventContentVC) : CommentVC where
  event := vc.event
  memberData := vc.memberData

def sent (vc : CommentVC) (currentUser commentID content : String) (timeZone : TimeZone) (now : ℚ)
    (sender : GUser) (newID : Nat → String) : List Write :=
  vc.inputPressed currentUser commentID content timeZone now ++
    vc.userFetched currentUser commentID sender newID (time timeZone now)

/-- The comment is stored once, and everybody else on the screen is told once, under a
key of their own. -/
structure TellsOthers (vc : CommentVC) (author commentID : String) (comment : Comment)
    (writes : List Write) : Prop where
  stored : writes.filter (recipient · = none) =
    [.setValue ["comment", vc.event.eventID, commentID] comment.uploadedCommentData]
  others : ∀ uid, uid ≠ author → uid = vc.event.organiserID ∨ uid ∈ vc.memberData.map (·.userID) →
    ∃ notification, notification.userID = uid ∧ notification.eventID = vc.event.eventID ∧
      writesTo uid writes = [told notification]
  nobodyElse : ∀ uid, uid = author ∨
    uid ≠ vc.event.organiserID ∧ uid ∉ vc.memberData.map (·.userID) → writesTo uid writes = []
  notificationIDs : (notificationIDs writes).Nodup

section Loaded

variable {content loaded : EventContentVC} {db : Store} (hdb : db.Within Schema)
  (hload : content.queryUserData db = some loaded)

include hdb hload

/-- With the organiser on record the members loaded are distinct users of the event. -/
theorem memberData_loaded (hrecord : db.contains ["user", content.event.organiserID] = true) :
    loaded.event = content.event ∧ (loaded.memberData.map (·.userID)).Nodup ∧
      ∀ member ∈ loaded.memberData, member.userID ∈ content.event.memberIDs := by
  obtain ⟨users, husers, hcases⟩ := EventContentVC.queryUserData_eq_some hload
  have hkeys : users.map (·.userID) = db.children ["user"] :=
    mapM_map_eq husers fun uid user hread => (GUser.userID_of_read hdb hread).1
  have horganiser : users.any (·.userID = content.event.organiserID) = true := by
    have hchild := (Store.mem_children_iff_contains db ["user"] _).mpr hrecord
    rw [← hkeys] at hchild
    obtain ⟨user, huser, hid⟩ := List.mem_map.mp hchild
    exact List.any_eq_true.mpr ⟨user, huser, decide_eq_true hid⟩
  rw [horganiser] at hcases
  obtain ⟨-, rfl⟩ := hcases.resolve_right (by simp)
  refine ⟨rfl, ?_, ?_⟩
  · have hnodup := db.nodup_children ["user"]
    rw [← hkeys] at hnodup
    exact hnodup.sublist (List.filter_sublist.map _)
  · intro member hmember
    exact of_decide_eq_true (List.mem_filter.mp hmember).2

end Loaded

/-! The notifications of one comment, seen as the users told and the keys used. -/

theorem map_mapIdx_userID (vc : CommentVC) (sender : GUser) (newID : Nat → String)
    (time : String) (members : List GUser) :
    (members.mapIdx fun round member =>
      vc.commentNotification sender member.userID (newID round) time).map (·.userID) =
        members.map (·.userID) := by
  ext i
  simp only [List.getElem?_map, List.getElem?_mapIdx, Option.map_map]
  rfl

theorem map_mapIdx_notificationID (vc : CommentVC) (sender : GUser) (newID : Nat → String)
    (time : String) (members : List GUser) :
    (members.mapIdx fun round member =>
      vc.commentNotification sender member.userID (newID round) time).map (·.notificationID) =
        (List.range members.length).map newID := by
  apply List.ext_getElem
  · simp
  · intro i _ _
    simp [commentNotification]

theorem eventID_of_mem_notifications {vc : CommentVC} {author commentID time : String}
    {sender : GUser} {newID : Nat → String} {notification : GNotification}
    (h : notification ∈ vc.notifications author commentID sender newID time) :
    notification.eventID = vc.event.eventID := by
  unfold notifications at h
  split at h
  · obtain ⟨i, _, rfl⟩ := List.exists_of_mem_mapIdx h
    rfl
  · rcases List.mem_cons.mp h with rfl | h
    · rfl
    · obtain ⟨i, _, rfl⟩ := List.exists_of_mem_mapIdx h
      rfl

section Told

variable {vc : CommentVC} (hnodup : (vc.memberData.map (·.userID)).Nodup)
  (horganiser : vc.event.organiserID ∉ vc.memberData.map (·.userID))
  (author commentID : String) (sender : GUser) (newID : Nat → String) (time : String)

include horganiser

theorem mem_notifications_userID (uid : String) :
    uid ∈ (vc.notifications author commentID sender newID time).map (·.userID) ↔
      uid ≠ author ∧ (uid = vc.event.organiserID ∨ uid ∈ vc.memberData.map (·.userID)) := by
  unfold notifications
  split
  · next hauthor =>
    rw [map_mapIdx_userID]
    constructor
    · intro hmember
      exact ⟨fun h => horganiser (hauthor ▸ h ▸ hmember), .inr hmember⟩
    · rintro ⟨hne, h | hmember⟩
      · exact absurd (h.trans hauthor.symm) hne
      · exact hmember
  · next hauthor =>
    rw [List.map_cons, map_mapIdx_userID, List.mem_cons]
    constructor
    · rintro (rfl | huid)
      · exact ⟨Ne.symm hauthor, .inl rfl⟩
      · obtain ⟨member, hmember, rfl⟩ := List.mem_map.mp huid
        obtain ⟨hlisted, hother⟩ := List.mem_filter.mp hmember
        exact ⟨Ne.symm (of_decide_eq_true hother), .inr (List.mem_map_of_mem hlisted)⟩
    · rintro ⟨hne, h | huid⟩
      · exact .inl h
      · obtain ⟨member, hmember, rfl⟩ := List.mem_map.mp huid
        exact .inr (List.mem_map_of_mem
          (List.mem_filter.mpr ⟨hmember, decide_eq_true (Ne.symm hne)⟩))

include hnodup

theorem notifications_userID_nodup :
    ((vc.notifications author commentID sender newID time).map (·.userID)).Nodup := by
  unfold notifications
  split
  · rw [map_mapIdx_userID]
    exact hnodup
  · rw [List.map_cons, map_mapIdx_userID, List.nodup_cons]
    have hsublist := (List.filter_sublist (p := fun member => decide (author ≠ member.userID))
      (l := vc.memberData)).map (·.userID)
    exact ⟨fun h => horganiser (hsublist.mem h), hnodup.sublist hsublist⟩

end Told

theorem notifications_notificationID_nodup (vc : CommentVC) (author commentID : String)
    (sender : GUser) {newID : Nat → String} (time : String) (hnew : Function.Injective newID)
    (hfresh : ∀ round, newID round ≠ commentID) :
    ((vc.notifications author commentID sender newID time).map (·.notificationID)).Nodup := by
  unfold notifications
  split
  · rw [map_mapIdx_notificationID]
    exact List.nodup_range.map hnew
  · rw [List.map_cons, map_mapIdx_notificationID, List.nodup_cons]
    refine ⟨?_, List.nodup_range.map hnew⟩
    intro h
    obtain ⟨round, -, hround⟩ := List.mem_map.mp h
    exact hfresh round hround

theorem userFetched_eq (vc : CommentVC) (author commentID : String) (sender : GUser)
    (newID : Nat → String) (time : String) :
    vc.userFetched author commentID sender newID time =
      (vc.notifications author commentID sender newID time).map told := rfl

theorem recipient_told (notification : GNotification) :
    recipient (told notification) = some notification.userID := recipient_notification _ _

theorem tellsOthers {vc : CommentVC} (hnodup : (vc.memberData.map (·.userID)).Nodup)
    (horganiser : vc.event.organiserID ∉ vc.memberData.map (·.userID))
    (author commentID text : String) (timeZone : TimeZone) (now : ℚ) (sender : GUser)
    {newID : Nat → String} (hnew : Function.Injective newID)
    (hfresh : ∀ round, newID round ≠ commentID) :
    TellsOthers vc author commentID (vc.comment author commentID text timeZone now)
      (vc.sent author commentID text timeZone now sender newID) := by
  have hnotified := notifications_userID_nodup hnodup horganiser author commentID sender newID
    (time timeZone now)
  have huserID := mem_notifications_userID horganiser author commentID sender newID
    (time timeZone now)
  have hwritesTo : ∀ uid, writesTo uid (vc.sent author commentID text timeZone now sender newID) =
      writesTo uid ((vc.notifications author commentID sender newID (time timeZone now)).map told) :=
    fun _ => rfl
  refine ⟨?_, ?_, ?_, ?_⟩
  · have hnil : (vc.userFetched author commentID sender newID (time timeZone now)).filter
        (recipient · = none) = [] := by
      rw [userFetched_eq, List.filter_eq_nil_iff]
      intro write hwrite
      obtain ⟨notification, -, rfl⟩ := List.mem_map.mp hwrite
      simp [recipient_told]
    rw [sent, List.filter_append, hnil]
    rfl
  · intro uid hauthor hlisted
    rw [hwritesTo]
    rcases writesTo_told hnotified uid with ⟨hnone, -⟩ | ⟨notification, hmem, hid, hwrites⟩
    · exact absurd ((huserID uid).mpr ⟨hauthor, hlisted⟩) hnone
    · exact ⟨notification, hid, eventID_of_mem_notifications hmem, hwrites⟩
  · intro uid hnot
    rw [hwritesTo]
    rcases writesTo_told hnotified uid with ⟨-, hwrites⟩ | ⟨notification, hmem, rfl, -⟩
    · exact hwrites
    · have htold := (huserID _).mp (List.mem_map_of_mem hmem)
      rcases hnot with hauthor | hstranger
      · exact absurd hauthor htold.1
      · exact absurd htold.2 (not_or.mpr hstranger)
  · have hkeys : notificationIDs (vc.sent author commentID text timeZone now sender newID) =
        (vc.notifications author commentID sender newID (time timeZone now)).map
          (·.notificationID) := by
      rw [← notificationIDs_told]
      rfl
    rw [hkeys]
    exact notifications_notificationID_nodup vc author commentID sender _ hnew hfresh

/-- Whoever writes a comment, the comment is stored once and exactly the organiser and the
loaded members, its author apart, are told, once each. -/
theorem comment_tells_others {content loaded : EventContentVC} {db : Store}
    (hdb : db.Within Schema) (hload : content.queryUserData db = some loaded)
    (hrecord : db.contains ["user", content.event.organiserID] = true)
    (horganiser : content.event.organiserID ∉ content.event.memberIDs)
    (author text : String) (timeZone : TimeZone) (now : ℚ) (sender : GUser) (ids : AutoId)
    (drawn later : Nat) :
    TellsOthers (prepared loaded) author (ids.key drawn)
      ((prepared loaded).comment author (ids.key drawn) text timeZone now)
      ((prepared loaded).sent author (ids.key drawn) text timeZone now sender
        fun round => ids.key (drawn + 1 + later + round)) := by
  obtain ⟨hevent, hnodup, hmembers⟩ := memberData_loaded hdb hload hrecord
  apply tellsOthers
  · exact hnodup
  · intro h
    obtain ⟨member, hmember, hid⟩ := List.mem_map.mp h
    have hlisted := hmembers member hmember
    rw [hid, prepared, hevent] at hlisted
    exact horganiser hlisted
  · intro round other h
    have hround := ids.injective h
    omega
  · intro round h
    have hround := ids.injective h
    omega

def carolJoined : EventContentVC where
  currentUser := "carol"
  event := ⟨"k", "alice", "Party", ["", "bob", "carol"], "2018-12-24 18:00", "Taipei", "Dinner",
    "k.jpg"⟩
  notification := none

theorem comment_tells_others_carol : ∃ db loaded, carolJoined.queryUserData db = some loaded ∧
    loaded.memberData = [World.bob, World.carol] ∧
    TellsOthers (prepared loaded) "carol" (AutoId.unary.key 3)
      ((prepared loaded).comment "carol" (AutoId.unary.key 3) "Hi" .taipei 0)
      ((prepared loaded).sent "carol" (AutoId.unary.key 3) "Hi" .taipei 0 World.carol
        fun round => AutoId.unary.key (3 + 1 + 0 + round)) := by
  have hrun : ((exec (World.step .unary) World.empty
      [.saveUser World.alice, .saveUser World.bob, .saveUser World.carol]).any fun w =>
        w.db.contains ["user", "alice"] ∧ (carolJoined.queryUserData w.db).any fun loaded =>
          loaded.memberData = [World.bob, World.carol]) = true := by decide
  obtain ⟨w, hw, hdb⟩ := (Option.any_eq_true _ _).mp hrun
  obtain ⟨hrecord, hloads⟩ := of_decide_eq_true hdb
  obtain ⟨loaded, hload, hmembers⟩ := (Option.any_eq_true _ _).mp hloads
  refine ⟨w.db, loaded, hload, of_decide_eq_true hmembers, ?_⟩
  exact comment_tells_others (World.within_schema ⟨_, hw⟩) hload hrecord (by decide) "carol" "Hi"
    .taipei 0 World.carol .unary 3 0

end CommentVC

end GetTogether
