import GetTogether.EventContentVC
import GetTogether.Realtime.KeyedSet
import GetTogether.DateFormatter

/-! The screen that creates or edits an event. Pressing done validates the form
and starts the image upload; everything is written when the upload completes. -/
namespace GetTogether

open Realtime

/-- What the Swift runtime leaves open: the hash of a string and the order in
which a set comes out as an array. -/
structure Runtime where
  hashValue : String → Int64
  users : KeyedSet.Enumeration GUser
  strings : KeyedSet.Enumeration String

/-- `GUser.==` compares hash values, so a set of users is keyed by them. -/
def Runtime.hash (runtime : Runtime) (user : GUser) : Int64 := runtime.hashValue user.userID

theorem Runtime.hash_eq (runtime : Runtime) (user : GUser) :
    runtime.hash user = runtime.hashValue user.userID := rfl

/-- The texts on the screen; a grey description is the placeholder. -/
structure Form where
  title : String
  date : String
  location : String
  description : String
  descriptionIsGrey : Bool
  deriving DecidableEq, Repr

inductive Phase where
  | editing
  | uploading (autoID : String)
  | finished
  deriving DecidableEq, Repr

structure AddEventVC where
  currentUser : String
  user : Option GUser := none
  /-- Set exactly when `isEdit` is. -/
  event : Option Event := none
  members : List GUser := []
  deletedMembers : List GUser := []
  originalMemers : List GUser := []
  form : Form
  phase : Phase := .editing
  deriving DecidableEq, Repr

namespace AddEventVC

def isEdit (vc : AddEventVC) : Bool := vc.event.isSome

/-- A new-event screen as the storyboard and `viewDidLoad` leave it. -/
def newEvent (currentUser now : String) : AddEventVC where
  currentUser := currentUser
  form := ⟨"", now, "尚未選擇", "為你的活動添加一點描述吧！", true⟩

/-- `prepare(for:)` of the event screen and `viewDidLoad` in edit mode. -/
def editEvent (vc : EventContentVC) : AddEventVC where
  currentUser := vc.currentUser
  event := some vc.event
  members := vc.memberData
  originalMemers := vc.memberData
  form := ⟨vc.event.title, vc.event.date, vc.event.location, vc.event.description, false⟩

/-- The picker writes the date in the zone of the device. -/
def dateChanged (vc : AddEventVC) (timeZone : TimeZone) (date : ℚ) : AddEventVC :=
  { vc with form := { vc.form with date := (dateFormatter timeZone).string date } }

def queryOrganiserData (vc : AddEventVC) (db : Store) : Option AddEventVC :=
  if db.contains ["user", vc.currentUser] then do
    let email ← db.string? ["user", vc.currentUser, "email"]
    let name ← db.string? ["user", vc.currentUser, "name"]
    let profileImageURL ← db.string? ["user", vc.currentUser, "profileImageURL"]
    return { vc with user := some { userID := vc.currentUser, email, name, profileImageURL } }
  else return vc

def didUpdateMember (vc : AddEventVC) (updatedMember : GUser) : AddEventVC :=
  if updatedMember.userID = vc.currentUser then vc
  else if vc.members.any (·.userID = updatedMember.userID) then vc
  else { vc with members := updatedMember :: vc.members }

/-- Deletions are remembered in edit mode only. -/
def deleteData (vc : AddEventVC) (item : Nat) : Option AddEventVC := do
  let removeItem ← vc.members[item]?
  return { vc with
    members := vc.members.eraseIdx item
    deletedMembers := if vc.isEdit then vc.deletedMembers ++ [removeItem] else vc.deletedMembers }

def accepts (form : Form) : Bool :=
  form.title ≠ "" ∧ form.location ≠ "尚未選擇" ∧
    ¬(form.description = "" ∨ form.descriptionIsGrey = true)

/-- The id the submission writes to: a new key, or the id of the edited event. -/
def submittedID (vc : AddEventVC) (autoID : String) : String :=
  match vc.event with
  | some event => event.eventID
  | none => autoID

def done (vc : AddEventVC) (autoID : String) : AddEventVC :=
  if accepts vc.form then { vc with phase := .uploading autoID } else vc

section Upload

variable (vc : AddEventVC) (runtime : Runtime)

/-- `memberSet.subtracting(removedMemberSet).subtracting(originalMemerSet)` as an array. -/
def editedMembers : List GUser :=
  let removedMemberSet := KeyedSet.ofArray runtime.hash vc.deletedMembers
  let memberSet := KeyedSet.ofArray runtime.hash vc.members
  let originalMemerSet := KeyedSet.ofArray runtime.hash vc.originalMemers
  runtime.users.toArray (KeyedSet.subtracting runtime.hash
    (KeyedSet.subtracting runtime.hash memberSet removedMemberSet) originalMemerSet)

/-- `deletedMembers` as the completion reassigns it: deleted and not added again. -/
def removedMembers : List GUser :=
  let removedMemberSet := KeyedSet.ofArray runtime.hash vc.deletedMembers
  let memberSet := KeyedSet.ofArray runtime.hash vc.members
  runtime.users.toArray (KeyedSet.subtracting runtime.hash removedMemberSet memberSet)

def finalMemberIDs : List String :=
  match vc.event with
  | none => [""]
  | some event =>
    if (vc.removedMembers runtime).isEmpty then event.memberIDs
    else runtime.strings.toArray (KeyedSet.subtracting id (KeyedSet.ofArray id event.memberIDs)
      (KeyedSet.ofArray id ((vc.removedMembers runtime).map (·.userID))))

def removalNotification (user : GUser) (event : Event) (member : GUser)
    (notificationID time : String) : GNotification where
  notificationID := notificationID
  userID := member.userID
  eventID := event.eventID
  message := quoted user.name ++ " 將您從 " ++ bracketed event.title ++ " 移出成員"
  remark := ""
  isRead := false
  time := time
  isRemoved := true

/-- One round of the loop over the removed members; it unwraps `user` half way. -/
def removal (event : Event) (newID : Nat → String) (time : String) (round : Nat)
    (member : GUser) : Outcome :=
  (Outcome.issue [.removeValue ["memberList", event.eventID, member.userID],
    .removeValue ["eventList", member.userID, event.eventID]]).andThen
  (match vc.user with
    | none => .trap
    | some user => .issue
      [.updateChildValues ["invitingEventList", member.userID, event.eventID]
          [("isMember", .bool false)],
        .setValue ["notification", newID round]
          (removalNotification user event member (newID round) time).uploadNotification])

def removals (newID : Nat → String) (time : String) : Outcome :=
  match vc.event with
  | none => .issue []
  | some event => .forEach (vc.removal event newID time) 0 (vc.removedMembers runtime)

def invitationNotification (user : GUser) (eventID : String) (member : GUser)
    (notificationID time : String) : GNotification where
  notificationID := notificationID
  userID := member.userID
  eventID := eventID
  message := quoted user.name ++ " 邀請您加入 " ++ bracketed vc.form.title
  remark := ""
  isRead := false
  time := time
  isRemoved := false

/-- One round of the loop over the edited members; the two index entries come
before the unwrap of `user`. -/
def invitation (eventID : String) (newID : Nat → String) (time : String) (round : Nat)
    (member : GUser) : Outcome :=
  (Outcome.issue
    [.setValue ["invitingMemberList", eventID, member.userID, "invitingMemberID"]
        (.scalar (.string member.userID)),
      .setValue ["invitingEventList", member.userID, eventID]
        (EventList.uploadedEventListData ⟨eventID, false, true⟩)]).andThen
  (match vc.user with
    | none => .trap
    | some user => .issue
      [.setValue ["notification", newID round]
        (vc.invitationNotification user eventID member (newID round) time).uploadNotification])

def invitations (eventID : String) (newID : Nat → String) (time : String) : Outcome :=
  .forEach (vc.invitation eventID newID time) (vc.removedMembers runtime).length
    (vc.editedMembers runtime)

def storedEvent (organiserID eventID url : String) : Event where
  eventID := eventID
  organiserID := organiserID
  title := vc.form.title
  memberIDs := vc.finalMemberIDs runtime
  date := vc.form.date
  location := vc.form.location
  description := vc.form.description
  eventImageURL := url

/-- The completion of the image upload; `signedIn` is the account at that time. -/
def uploadEventData (signedIn : Option String) (autoID : String) (newID : Nat → String)
    (time url : String) : Outcome :=
  let eventID := vc.submittedID autoID
  match signedIn with
  | none => .issue []
  | some uid => (vc.removals runtime newID time).andThen
      ((vc.invitations runtime eventID newID time).andThen
        (.issue [.setValue ["event", eventID]
          (vc.storedEvent runtime uid eventID url).uploadedEventData]))

end Upload

end AddEventVC

end GetTogether
