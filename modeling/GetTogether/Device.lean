import GetTogether.MainVC
import GetTogether.NotificationVC
import GetTogether.ProfileVC

/-! One device: who is signed in, the three tabs, and the callbacks that reach them. A
query installs an observer that is called again and again until the app ends; the
database changes by the hands of anyone. -/
namespace GetTogether

open Realtime

structure Device where
  db : Store
  currentUser : Option String := none
  main : MainVC := {}
  notification : NotificationVC := {}
  profile : ProfileVC := {}
  editing : Option GUser := none
  uploads : List EditProfileInfoVC.Upload := []
  stopped : Bool := false

namespace Device

inductive Action where
  /-- Anyone changes the database outside the user records. -/
  | write (write : Write)
  /-- Anyone saves a user record; no account changes the email it has. -/
  | saveUser (user : GUser)
  | signIn (uid : String)
  | login
  | logout
  | mainDidLoad
  | notificationDidLoad
  | profileDidLoad
  | refreshMain
  | refreshNotification
  | mainDelivered (observer : Nat)
  | notificationDelivered (observer : Nat) (order : NotificationVC.NewestFirst)
  | userDelivered (observer : Nat)
  | eventFetched (fetch : Nat)
  | reloadData
  | cellForRow (row : Nat)
  | selectRow (row : Nat)
  | editPressed
  | editBack
  | donePressed
  | uploaded (upload : Nat) (name url : String)

def empty : Device := { db := .empty }

/-- The tabs that have been loaded hear of a login. -/
def login (s : Device) : Device :=
  { s with
    main := if s.main.isLoaded then s.main.didUserLogin s.currentUser else s.main
    notification :=
      if s.notification.isLoaded then s.notification.didUserLogin s.currentUser else s.notification
    profile := if s.profile.isLoaded then s.profile.didUserLogin s.currentUser else s.profile }

def logout (s : Device) : Device :=
  { s with
    currentUser := none
    main := if s.main.isLoaded then s.main.didUserLogout else s.main
    notification := if s.notification.isLoaded then s.notification.didUserLogout else s.notification
    profile := if s.profile.isLoaded then s.profile.didUserLogout else s.profile }

def selectRow (s : Device) (row : Nat) : Device :=
  match s.notification.prepare row, s.notification.didSelectRowAt row with
  | some _, some writes => { s with db := s.db.applyAll writes }
  | _, _ => { s with stopped := true }

/-- The record of an account may be saved when it keeps the email. -/
def savable (db : Store) (user : GUser) : Bool :=
  user.userID ≠ "" && (!db.contains ["user", user.userID] ||
    db.string? ["user", user.userID, "email"] = some user.email)

def stepRunning (s : Device) : Action → Option Device
  | .write write =>
    if write.topKey.any (· ≠ "user") then some { s with db := write.apply s.db } else none
  | .saveUser user =>
    if savable s.db user then
      some { s with db := s.db.setValue ["user", user.userID] user.uploadedUserData }
    else none
  | .signIn uid => if uid = "" then none else some { s with currentUser := some uid }
  | .login => some s.login
  | .logout => if s.currentUser.isSome then some s.logout else none
  | .mainDidLoad =>
    if s.main.isLoaded then none else some { s with main := s.main.viewDidLoad s.currentUser }
  | .notificationDidLoad =>
    if s.notification.isLoaded then none
    else some { s with notification := s.notification.viewDidLoad s.currentUser }
  | .profileDidLoad =>
    if s.profile.isLoaded then none
    else some { s with profile := s.profile.viewDidLoad s.currentUser }
  | .refreshMain =>
    if s.main.isLoaded then some { s with main := s.main.refreshData s.currentUser } else none
  | .refreshNotification =>
    if s.notification.isLoaded then
      some { s with notification := s.notification.refreshData s.currentUser }
    else none
  | .mainDelivered observer => do
    let uid ← s.main.observers[observer]?
    let events ← MainVC.readEvents s.db
    return { s with main := s.main.delivered events uid }
  | .notificationDelivered observer order => do
    let uid ← s.notification.observers[observer]?
    let notifications ← NotificationVC.readNotifications s.db
    return { s with notification := s.notification.delivered order notifications uid }
  | .userDelivered observer => do
    let uid ← s.profile.observers[observer]?
    let profile ← s.profile.delivered s.db uid
    return { s with profile }
  | .eventFetched fetch => do
    let eventID ← s.notification.fetches[fetch]?
    let event ← NotificationVC.fetchEvent s.db eventID
    return { s with notification := s.notification.eventFetched fetch event }
  | .reloadData =>
    if 0 < s.notification.reloads then
      some { s with
        notification :=
          { s.notification with reloads := s.notification.reloads - 1 }.reloadData }
    else none
  | .cellForRow row =>
    (s.notification.cellForRowAt row).map fun notification => { s with notification }
  | .selectRow row => if (s.notification.shown row).isSome then some (s.selectRow row) else none
  | .editPressed =>
    if s.profile.editBtn then s.profile.user.map fun user => { s with editing := some user }
    else none
  | .editBack => if s.editing.isSome then some { s with editing := none } else none
  | .donePressed => s.editing.map fun user =>
    { s with
      editing := none
      uploads := s.uploads ++ (EditProfileInfoVC.uploadUserData user s.currentUser).toList }
  | .uploaded upload name url => (s.uploads[upload]?).map fun closure =>
    { s with
      db := s.db.applyAll (EditProfileInfoVC.uploaded closure name url)
      uploads := s.uploads.eraseIdx upload }

def step (s : Device) (a : Action) : Option Device := if s.stopped then none else s.stepRunning a

end Device

end GetTogether
