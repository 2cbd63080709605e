import GetTogether.Realtime.Handler

/-! The records of the database. A reader force-casts every field, so a record
with a missing or mistyped field is `none` here and a trap in the app. -/
namespace GetTogether

open Realtime

structure Event where
  eventID : String
  organiserID : String
  title : String
  memberIDs : List String
  date : String
  location : String
  description : String
  eventImageURL : String
  deriving DecidableEq, Repr

def Event.uploadedEventData (event : Event) : Tree :=
  .object [("eventID", .string event.eventID), ("organiserID", .string event.organiserID),
    ("title", .string event.title), ("memberIDs", .array event.memberIDs),
    ("date", .string event.date), ("location", .string event.location),
    ("description", .string event.description), ("eventImageURL", .string event.eventImageURL)]

def Event.read (db : Store) (path : Path) : Option Event := do
  let eventID ← db.string? (path ++ ["eventID"])
  let organiserID ← db.string? (path ++ ["organiserID"])
  let title ← db.string? (path ++ ["title"])
  let memberIDs ← db.array? (path ++ ["memberIDs"])
  let date ← db.string? (path ++ ["date"])
  let location ← db.string? (path ++ ["location"])
  let description ← db.string? (path ++ ["description"])
  let eventImageURL ← db.string? (path ++ ["eventImageURL"])
  return { eventID, organiserID, title, memberIDs, date, location, description, eventImageURL }

structure GUser where
  userID : String
  email : String
  name : String
  profileImageURL : String
  deriving DecidableEq, Repr

def GUser.uploadedUserData (user : GUser) : Tree :=
  .object [("userID", .string user.userID), ("email", .string user.email),
    ("name", .string user.name), ("profileImageURL", .string user.profileImageURL)]

def GUser.read (db : Store) (path : Path) : Option GUser := do
  let userID ← db.string? (path ++ ["userID"])
  let email ← db.string? (path ++ ["email"])
  let name ← db.string? (path ++ ["name"])
  let profileImageURL ← db.string? (path ++ ["profileImageURL"])
  return { userID, email, name, profileImageURL }

structure EventList where
  eventID : String
  isReply : Bool
  isMember : Bool
  deriving DecidableEq, Repr

def EventList.uploadedEventListData (list : EventList) : Tree :=
  .object [("eventID", .string list.eventID), ("isReply", .bool list.isReply),
    ("isMember", .bool list.isMember)]

def EventList.read (db : Store) (path : Path) : Option EventList := do
  let eventID ← db.string? (path ++ ["eventID"])
  let isReply ← db.bool? (path ++ ["isReply"])
  let isMember ← db.bool? (path ++ ["isMember"])
  return { eventID, isReply, isMember }

structure GNotification where
  notificationID : String
  userID : String
  eventID : String
  message : String
  remark : String
  isRead : Bool
  time : String
  isRemoved : Bool
  deriving DecidableEq, Repr

def GNotification.uploadNotification (notification : GNotification) : Tree :=
  .object [("notificationID", .string notification.notificationID),
    ("userID", .string notification.userID), ("eventID", .string notification.eventID),
    ("message", .string notification.message), ("remark", .string notification.remark),
    ("isRead", .bool notification.isRead), ("time", .string notification.time),
    ("isRemoved", .bool notification.isRemoved)]

def GNotification.read (db : Store) (path : Path) : Option GNotification := do
  let notificationID ← db.string? (path ++ ["notificationID"])
  let userID ← db.string? (path ++ ["userID"])
  let eventID ← db.string? (path ++ ["eventID"])
  let message ← db.string? (path ++ ["message"])
  let remark ← db.string? (path ++ ["remark"])
  let isRead ← db.bool? (path ++ ["isRead"])
  let time ← db.string? (path ++ ["time"])
  let isRemoved ← db.bool? (path ++ ["isRemoved"])
  return { notificationID, userID, eventID, message, remark, isRead, time, isRemoved }

structure Comment where
  eventID : String
  commentID : String
  userID : String
  content : String
  time : String
  deriving DecidableEq, Repr

def Comment.uploadedCommentData (comment : Comment) : Tree :=
  .object [("eventID", .string comment.eventID), ("commentID", .string comment.commentID),
    ("userID", .string comment.userID), ("content", .string comment.content),
    ("time", .string comment.time)]

def Comment.read (db : Store) (path : Path) : Option Comment := do
  let eventID ← db.string? (path ++ ["eventID"])
  let commentID ← db.string? (path ++ ["commentID"])
  let userID ← db.string? (path ++ ["userID"])
  let content ← db.string? (path ++ ["content"])
  let time ← db.string? (path ++ ["time"])
  return { eventID, commentID, userID, content, time }

/-- Where the scalars of the app's records lie; a record repeats its own key. -/
inductive Schema : Path → Scalar → Prop
  | eventID (eventID : String) : Schema ["event", eventID, "eventID"] (.string eventID)
  | memberIDs (eventID : String) (memberIDs : List String) :
      Schema ["event", eventID, "memberIDs"] (.array memberIDs)
  | event (eventID : String) {field : String} (text : String) :
      field ∈ ["organiserID", "title", "date", "location", "description", "eventImageURL"] →
      Schema ["event", eventID, field] (.string text)
  | userID {uid : String} : uid ≠ "" → Schema ["user", uid, "userID"] (.string uid)
  | user (uid : String) {field : String} (text : String) :
      field ∈ ["email", "name", "profileImageURL"] → Schema ["user", uid, field] (.string text)
  | listedEventID (uid eventID : String) :
      Schema ["invitingEventList", uid, eventID, "eventID"] (.string eventID)
  | listedFlag (uid eventID : String) {field : String} (flag : Bool) :
      field ∈ ["isReply", "isMember"] →
      Schema ["invitingEventList", uid, eventID, field] (.bool flag)
  | invitingMemberID (eventID uid : String) :
      Schema ["invitingMemberList", eventID, uid, "invitingMemberID"] (.string uid)
  | notificationID (notificationID : String) :
      Schema ["notification", notificationID, "notificationID"] (.string notificationID)
  | notification (notificationID : String) {field : String} (text : String) :
      field ∈ ["userID", "eventID", "message", "remark", "time"] →
      Schema ["notification", notificationID, field] (.string text)
  | notificationFlag (notificationID : String) {field : String} (flag : Bool) :
      field ∈ ["isRead", "isRemoved"] →
      Schema ["notification", notificationID, field] (.bool flag)

theorem Event.within_schema (event : Event) :
    (Write.setValue ["event", event.eventID] event.uploadedEventData).Within Schema := by
  refine Write.within_object ?_
  simp only [List.forall_mem_cons, List.cons_append, List.nil_append]
  refine ⟨.eventID _, .event _ _ ?_, .event _ _ ?_, .memberIDs _ _, .event _ _ ?_, .event _ _ ?_,
    .event _ _ ?_, .event _ _ ?_, ?_⟩ <;> simp

theorem GUser.within_schema (user : GUser) (h : user.userID ≠ "") :
    (Write.setValue ["user", user.userID] user.uploadedUserData).Within Schema := by
  refine Write.within_object ?_
  simp only [List.forall_mem_cons, List.cons_append, List.nil_append]
  refine ⟨.userID h, .user _ _ ?_, .user _ _ ?_, .user _ _ ?_, ?_⟩ <;> simp

theorem EventList.within_schema (uid : String) (list : EventList) :
    (Write.setValue ["invitingEventList", uid, list.eventID]
      list.uploadedEventListData).Within Schema := by
  refine Write.within_object ?_
  simp only [List.forall_mem_cons, List.cons_append, List.nil_append]
  refine ⟨.listedEventID _ _, .listedFlag _ _ _ ?_, .listedFlag _ _ _ ?_, ?_⟩ <;> simp

theorem GNotification.within_schema (notification : GNotification) :
    (Write.setValue ["notification", notification.notificationID]
      notification.uploadNotification).Within Schema := by
  refine Write.within_object ?_
  simp only [List.forall_mem_cons, List.cons_append, List.nil_append]
  refine ⟨.notificationID _, .notification _ _ ?_, .notification _ _ ?_, .notification _ _ ?_,
    .notification _ _ ?_, .notificationFlag _ _ ?_, .notification _ _ ?_,
    .notificationFlag _ _ ?_, ?_⟩ <;> simp

/-! Records read back: which leaves a successful read has seen, and that a record
lies under its own key. -/

theorem Event.read_eq_some {db : Store} {path : Path} {event : Event} :
    Event.read db path = some event ↔
      db.get (path ++ ["eventID"]) = some (.string event.eventID) ∧
      db.get (path ++ ["organiserID"]) = some (.string event.organiserID) ∧
      db.get (path ++ ["title"]) = some (.string event.title) ∧
      db.get (path ++ ["memberIDs"]) = some (.array event.memberIDs) ∧
      db.get (path ++ ["date"]) = some (.string event.date) ∧
      db.get (path ++ ["location"]) = some (.string event.location) ∧
      db.get (path ++ ["description"]) = some (.string event.description) ∧
      db.get (path ++ ["eventImageURL"]) = some (.string event.eventImageURL) := by
  simp only [← Store.string?_eq_some, ← Store.array?_eq_some]
  simp only [Event.read, Option.bind_eq_bind, Option.bind_eq_some_iff, Option.pure_def,
    Option.some.injEq]
  constructor
  · rintro ⟨_, h1, _, h2, _, h3, _, h4, _, h5, _, h6, _, h7, _, h8, rfl⟩
    exact ⟨h1, h2, h3, h4, h5, h6, h7, h8⟩
  · rintro ⟨h1, h2, h3, h4, h5, h6, h7, h8⟩
    exact ⟨_, h1, _, h2, _, h3, _, h4, _, h5, _, h6, _, h7, _, h8, rfl⟩

theorem GUser.read_eq_some {db : Store} {path : Path} {user : GUser} :
    GUser.read db path = some user ↔
      db.get (path ++ ["userID"]) = some (.string user.userID) ∧
      db.get (path ++ ["email"]) = some (.string user.email) ∧
      db.get (path ++ ["name"]) = some (.string user.name) ∧
      db.get (path ++ ["profileImageURL"]) = some (.string user.profileImageURL) := by
  simp only [← Store.string?_eq_some]
  simp only [GUser.read, Option.bind_eq_bind, Option.bind_eq_some_iff, Option.pure_def,
    Option.some.injEq]
  constructor
  · rintro ⟨_, h1, _, h2, _, h3, _, h4, rfl⟩
    exact ⟨h1, h2, h3, h4⟩
  · rintro ⟨h1, h2, h3, h4⟩
    exact ⟨_, h1, _, h2, _, h3, _, h4, rfl⟩

theorem EventList.read_eq_some {db : Store} {path : Path} {list : EventList} :
    EventList.read db path = some list ↔
      db.get (path ++ ["eventID"]) = some (.string list.eventID) ∧
      db.get (path ++ ["isReply"]) = some (.bool list.isReply) ∧
      db.get (path ++ ["isMember"]) = some (.bool list.isMember) := by
  simp only [← Store.string?_eq_some, ← Store.bool?_eq_some]
  simp only [EventList.read, Option.bind_eq_bind, Option.bind_eq_some_iff, Option.pure_def,
    Option.some.injEq]
  constructor
  · rintro ⟨_, h1, _, h2, _, h3, rfl⟩
    exact ⟨h1, h2, h3⟩
  · rintro ⟨h1, h2, h3⟩
    exact ⟨_, h1, _, h2, _, h3, rfl⟩

theorem GNotification.read_eq_some {db : Store} {path : Path} {notification : GNotification} :
    GNotification.read db path = some notification ↔
      db.get (path ++ ["notificationID"]) = some (.string notification.notificationID) ∧
      db.get (path ++ ["userID"]) = some (.string notification.userID) ∧
      db.get (path ++ ["eventID"]) = some (.string notification.eventID) ∧
      db.get (path ++ ["message"]) = some (.string notification.message) ∧
      db.get (path ++ ["remark"]) = some (.string notification.remark) ∧
      db.get (path ++ ["isRead"]) = some (.bool notification.isRead) ∧
      db.get (path ++ ["time"]) = some (.string notification.time) ∧
      db.get (path ++ ["isRemoved"]) = some (.bool notification.isRemoved) := by
  simp only [← Store.string?_eq_some, ← Store.bool?_eq_some]
  simp only [GNotification.read, Option.bind_eq_bind, Option.bind_eq_some_iff, Option.pure_def,
    Option.some.injEq]
  constructor
  · rintro ⟨_, h1, _, h2, _, h3, _, h4, _, h5, _, h6, _, h7, _, h8, rfl⟩
    exact ⟨h1, h2, h3, h4, h5, h6, h7, h8⟩
  · rintro ⟨h1, h2, h3, h4, h5, h6, h7, h8⟩
    exact ⟨_, h1, _, h2, _, h3, _, h4, _, h5, _, h6, _, h7, _, h8, rfl⟩

theorem Comment.read_eq_some {db : Store} {path : Path} {comment : Comment} :
    Comment.read db path = some comment ↔
      db.get (path ++ ["eventID"]) = some (.string comment.eventID) ∧
      db.get (path ++ ["commentID"]) = some (.string comment.commentID) ∧
      db.get (path ++ ["userID"]) = some (.string comment.userID) ∧
      db.get (path ++ ["content"]) = some (.string comment.content) ∧
      db.get (path ++ ["time"]) = some (.string comment.time) := by
  simp only [← Store.string?_eq_some]
  simp only [Comment.read, Option.bind_eq_bind, Option.bind_eq_some_iff, Option.pure_def,
    Option.some.injEq]
  constructor
  · rintro ⟨_, h1, _, h2, _, h3, _, h4, _, h5, rfl⟩
    exact ⟨h1, h2, h3, h4, h5⟩
  · rintro ⟨h1, h2, h3, h4, h5⟩
    exact ⟨_, h1, _, h2, _, h3, _, h4, _, h5, rfl⟩

theorem Schema.event_eventID {eventID : String} {value : Scalar}
    (h : Schema ["event", eventID, "eventID"] value) : value = .string eventID := by
  generalize hpath : ["event", eventID, "eventID"] = path at h
  cases h <;> grind

theorem Schema.user_userID {uid : String} {value : Scalar}
    (h : Schema ["user", uid, "userID"] value) : value = .string uid ∧ uid ≠ "" := by
  generalize hpath : ["user", uid, "userID"] = path at h
  cases h <;> grind

theorem Schema.listed_path {uid eventID : String} {rest : Path} {value : Scalar}
    (h : Schema ("invitingEventList" :: uid :: eventID :: rest) value) :
    (rest = ["eventID"] ∧ value = .string eventID) ∨
      ∃ flag, (rest = ["isReply"] ∨ rest = ["isMember"]) ∧ value = .bool flag := by
  generalize hpath : "invitingEventList" :: uid :: eventID :: rest = path at h
  cases h <;> simp_all

theorem Schema.invitingMember_path {eventID uid : String} {rest : Path} {value : Scalar}
    (h : Schema ("invitingMemberList" :: eventID :: uid :: rest) value) :
    rest = ["invitingMemberID"] ∧ value = .string uid := by
  generalize hpath : "invitingMemberList" :: eventID :: uid :: rest = path at h
  cases h <;> simp_all

section Keys

variable {db : Store} (hdb : db.Within Schema)

include hdb

theorem Event.eventID_of_read {eventID : String} {event : Event}
    (h : Event.read db ["event", eventID] = some event) : event.eventID = eventID := by
  have hleaf := (Event.read_eq_some.mp h).1
  simpa using Schema.event_eventID (hdb _ _ hleaf)

theorem GUser.userID_of_read {uid : String} {user : GUser}
    (h : GUser.read db ["user", uid] = some user) : user.userID = uid ∧ uid ≠ "" := by
  have hleaf := (GUser.read_eq_some.mp h).1
  simpa using Schema.user_userID (hdb _ _ hleaf)

theorem EventList.eventID_of_read {uid eventID : String} {list : EventList}
    (h : EventList.read db ["invitingEventList", uid, eventID] = some list) :
    list.eventID = eventID := by
  have hleaf := (EventList.read_eq_some.mp h).1
  simpa using Schema.listed_path (hdb _ _ hleaf)

end Keys

end GetTogether
