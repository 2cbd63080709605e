import GetTogether.DataModels

/-! The event screen. It holds the event it was opened with and never reads it
again; the invitation record and the users arrive later, through callbacks. -/
namespace GetTogether

open Realtime

def quoted (name : String) : String := "\"" ++ name ++ "\""

def bracketed (title : String) : String := "「" ++ title ++ "」"

/-- The prompt of `showAnwserSelector`: its time and notification id are taken
when it is shown, not when it is answered. -/
structure AnswerSelector where
  user : GUser
  time : String
  notificationID : String
  deriving DecidableEq, Repr

structure EventContentVC where
  currentUser : String
  event : Event
  notification : Option GNotification
  memberData : List GUser := []
  /-- The records read by `queryEventList` whose user is still being fetched. -/
  userFetches : List EventList := []
  answerSelector : Option AnswerSelector := none
  /-- Whether `showAlert` told the user that they are no longer a member. -/
  noLongerMember : Bool := false
  deriving DecidableEq, Repr

namespace EventContentVC

/-- Every record of the user is cast, not only the one of the opened event. -/
def readEventLists (db : Store) (uid : String) : Option (List EventList) :=
  (db.children ["invitingEventList", uid]).mapM fun eventID =>
    EventList.read db ["invitingEventList", uid, eventID]

def queryEventList (vc : EventContentVC) (db : Store) : Option EventContentVC := do
  let eventLists ← readEventLists db vc.currentUser
  return { vc with userFetches := vc.userFetches ++ eventLists }

def showAnwserSelector (vc : EventContentVC) (user : GUser) (time notificationID : String) :
    EventContentVC :=
  { vc with answerSelector := some { user, time, notificationID } }

def userFetched (vc : EventContentVC) (db : Store) (eventList : EventList)
    (time notificationID : String) : Option EventContentVC :=
  if db.contains ["user", vc.currentUser] then do
    let user ← GUser.read db ["user", vc.currentUser]
    if eventList.eventID = vc.event.eventID ∧ eventList.isReply = false then
      return vc.showAnwserSelector user time notificationID
    else if eventList.eventID = vc.event.eventID ∧ eventList.isMember = false then
      return { vc with noLongerMember := true }
    else return vc
  else return vc

/-- The guard on the organiser leaves `memberData` as it was. -/
def queryUserData (vc : EventContentVC) (db : Store) : Option EventContentVC := do
  let users ← (db.children ["user"]).mapM fun uid => GUser.read db ["user", uid]
  if users.any (·.userID = vc.event.organiserID) then
    return { vc with memberData := users.filter (·.userID ∈ vc.event.memberIDs) }
  else return vc

/-- Whether the action sheet of `editPressed` offers edit; otherwise it offers drop out. -/
def offersEdit (vc : EventContentVC) : Bool := vc.currentUser = vc.event.organiserID

def agreeNotification (vc : EventContentVC) (prompt : AnswerSelector) : GNotification where
  notificationID := prompt.notificationID
  userID := vc.event.organiserID
  eventID := vc.event.eventID
  message := quoted prompt.user.name ++ " 同意加入 " ++ bracketed vc.event.title
  remark := ""
  isRead := false
  time := prompt.time
  isRemoved := false

def agree (vc : EventContentVC) (prompt : AnswerSelector) : List Write :=
  [.setValue ["notification", prompt.notificationID]
      (vc.agreeNotification prompt).uploadNotification,
    .updateChildValues ["invitingEventList", vc.currentUser, vc.event.eventID]
      [("isReply", .bool true)],
    .removeValue ["invitingMemberList", vc.event.eventID, vc.currentUser],
    .updateChildValues ["event", vc.event.eventID]
      [("memberIDs", .array (vc.event.memberIDs ++ [vc.currentUser]))]]

/-- The screen after the prompt was answered yes: `event.memberIDs` was appended to. -/
def agreed (vc : EventContentVC) : EventContentVC :=
  { vc with
    event := { vc.event with memberIDs := vc.event.memberIDs ++ [vc.currentUser] }
    answerSelector := none }

def rejectNotification (vc : EventContentVC) (prompt : AnswerSelector) : GNotification where
  notificationID := prompt.notificationID
  userID := vc.event.organiserID
  eventID := vc.event.eventID
  message := quoted prompt.user.name ++ " 拒絕了 " ++ bracketed vc.event.title ++ " 的加入邀請"
  remark := ""
  isRead := false
  time := prompt.time
  isRemoved := false

/-- `notification` is unwrapped before anything is written. -/
def reject (vc : EventContentVC) (prompt : AnswerSelector) : Outcome :=
  match vc.notification with
  | none => .trap
  | some notification => .issue
    [.updateChildValues ["notification", notification.notificationID] [("isRemoved", .bool true)],
      .updateChildValues ["invitingEventList", vc.currentUser, vc.event.eventID]
        [("isReply", .bool true)],
      .updateChildValues ["invitingEventList", vc.currentUser, vc.event.eventID]
        [("isMember", .bool false)],
      .removeValue ["invitingMemberList", vc.event.eventID, vc.currentUser],
      .setValue ["notification", prompt.notificationID]
        (vc.rejectNotification prompt).uploadNotification]

def rejected (vc : EventContentVC) : EventContentVC := { vc with answerSelector := none }

/-- The guard of `showDropOutAlert`. -/
def showsDropOutAlert (vc : EventContentVC) : Bool := vc.currentUser ∈ vc.event.memberIDs

def dropOutNotification (vc : EventContentVC) (autoID time : String) : GNotification where
  notificationID := autoID
  userID := vc.event.organiserID
  eventID := vc.event.eventID
  message := quoted (((vc.memberData.filter (·.userID = vc.currentUser)).head?.map (·.name)).getD "")
    ++ " 退出了 " ++ bracketed vc.event.title
  remark := ""
  isRead := false
  time := time
  isRemoved := false

def dropOut (vc : EventContentVC) (autoID time : String) : List Write :=
  [.setValue ["event", vc.event.eventID, "memberIDs"]
      (.scalar (.array (vc.event.memberIDs.filter (· ≠ vc.currentUser)))),
    .updateChildValues ["invitingEventList", vc.currentUser, vc.event.eventID]
      [("isMember", .bool false)],
    .setValue ["notification", autoID] (vc.dropOutNotification autoID time).uploadNotification]

end EventContentVC

end GetTogether
