import GetTogether.EventContentVC
import GetTogether.DateFormatter

/-! The comments of one event. Sending one writes it at once and tells the organiser
and the members after the sender's record has been fetched. -/
namespace GetTogether

open Realtime

structure CommentVC where
  event : Event
  memberData : List GUser := []
  deriving DecidableEq, Repr

namespace CommentVC

section Input

variable (vc : CommentVC) (currentUser commentID : String)

def time (timeZone : TimeZone) (now : ℚ) : String := (timeFormatter timeZone).string now

def comment (content : String) (timeZone : TimeZone) (now : ℚ) : Comment where
  eventID := vc.event.eventID
  commentID := commentID
  userID := currentUser
  content := content
  time := time timeZone now

/-- What `inputPressed` writes before it fetches the sender. -/
def inputPressed (content : String) (timeZone : TimeZone) (now : ℚ) : List Write :=
  [.setValue ["comment", vc.event.eventID, commentID]
    (vc.comment currentUser commentID content timeZone now).uploadedCommentData]

def commentNotification (sender : GUser) (userID notificationID time : String) :
    GNotification where
  notificationID := notificationID
  userID := userID
  eventID := vc.event.eventID
  message := quoted sender.name ++ " 在 " ++ bracketed vc.event.title ++ " 中留言"
  remark := ""
  isRead := false
  time := time
  isRemoved := false

/-- The notifications of the completion of the fetch. The one for the organiser lies
under the id of the comment. -/
def notifications (sender : GUser) (newID : Nat → String) (time : String) :
    List GNotification :=
  if currentUser = vc.event.organiserID then
    vc.memberData.mapIdx fun round member =>
      vc.commentNotification sender member.userID (newID round) time
  else vc.commentNotification sender vc.event.organiserID commentID time ::
    (vc.memberData.filter (currentUser ≠ ·.userID)).mapIdx fun round member =>
      vc.commentNotification sender member.userID (newID round) time

def userFetched (sender : GUser) (newID : Nat → String) (time : String) : List Write :=
  (vc.notifications currentUser commentID sender newID time).map fun notification =>
    .setValue ["notification", notification.notificationID] notification.uploadNotification

end Input

/-- All comments of an event as `queryOrdered(byChild: "time")` delivers them; every record
is cast. -/
def readComments (db : Store) (eventID : String) : Option (List Comment) :=
  ((db.children ["comment", eventID]).mapM fun commentID =>
    Comment.read db ["comment", eventID, commentID]).map
      fun comments => comments.insertionSort fun a b => a.time ≤ b.time

theorem readComments_sorted {db : Store} {eventID : String} {comments : List Comment}
    (h : readComments db eventID = some comments) :
    comments.Pairwise fun a b => a.time ≤ b.time := by
  unfold readComments at h
  obtain ⟨read, hread, rfl⟩ := Option.map_eq_some_iff.mp h
  have : Std.Total fun a b : Comment => a.time ≤ b.time :=
    ⟨fun a b => String.le_total a.time b.time⟩
  have : IsTrans Comment fun a b => a.time ≤ b.time :=
    ⟨fun a b c hab hbc => String.le_trans hab hbc⟩
  exact List.pairwise_insertionSort _ read

/-- The date `getTimeDifferentWith` reads: the zone of the device is replaced. -/
def dateModel (device : TimeZone) (date : String) : Option ℚ :=
  { timeFormatter device with timeZone := .taipei }.date date

/-- `Int(_:)` of a number drops its fraction. -/
def truncated (seconds : ℚ) : Int := seconds.num.tdiv seconds.den

/-- A text that is no date is unwrapped and traps. -/
def getTimeDifferentWith (device : TimeZone) (now : ℚ) (date : String) : Option String :=
  (dateModel device date).map fun dateModel =>
    let time := (truncated now - truncated dateModel).tdiv 60
    if time ≤ 60 then toString time ++ "分鐘前"
    else if time ≤ 60 * 24 then toString (time.tdiv 60) ++ "小時前"
    else if time ≤ 60 * 24 * 7 then toString ((time.tdiv 60).tdiv 24) ++ "天前"
    else toString (((time.tdiv 60).tdiv 24).tdiv 7) ++ "週前"

end CommentVC

end GetTogether
