import GetTogether.Device

/-! Which part of the device an action can change. -/
namespace GetTogether.Device

open Realtime

variable {s s' : Device} {a : Action}

theorem step_eq_some : s.step a = some s' ↔ s.stopped = false ∧ s.stepRunning a = some s' := by
  rw [step, Option.ite_none_left_eq_some, Bool.not_eq_true]

inductive Step (s : Device) : Action → Device → Prop
  | write {write : Write} : write.topKey.any (· ≠ "user") = true →
      Step s (.write write) { s with db := write.apply s.db }
  | saveUser {user : GUser} : savable s.db user = true →
      Step s (.saveUser user)
        { s with db := s.db.setValue ["user", user.userID] user.uploadedUserData }
  | signIn {uid : String} : uid ≠ "" → Step s (.signIn uid) { s with currentUser := some uid }
  | login : Step s .login s.login
  | logout : s.currentUser.isSome = true → Step s .logout s.logout
  | mainDidLoad : s.main.isLoaded = false →
      Step s .mainDidLoad { s with main := s.main.viewDidLoad s.currentUser }
  | notificationDidLoad : s.notification.isLoaded = false →
      Step s .notificationDidLoad
        { s with notification := s.notification.viewDidLoad s.currentUser }
  | profileDidLoad : s.profile.isLoaded = false →
      Step s .profileDidLoad { s with profile := s.profile.viewDidLoad s.currentUser }
  | refreshMain : s.main.isLoaded = true →
      Step s .refreshMain { s with main := s.main.refreshData s.currentUser }
  | refreshNotification : s.notification.isLoaded = true →
      Step s .refreshNotification
        { s with notification := s.notification.refreshData s.currentUser }
  | mainDelivered {observer : Nat} {uid : String} {events : List Event} :
      s.main.observers[observer]? = some uid → MainVC.readEvents s.db = some events →
      Step s (.mainDelivered observer) { s with main := s.main.delivered events uid }
  | notificationDelivered {observer : Nat} {order : NotificationVC.NewestFirst} {uid : String}
      {notifications : List GNotification} : s.notification.observers[observer]? = some uid →
      NotificationVC.readNotifications s.db = some notifications →
      Step s (.notificationDelivered observer order)
        { s with notification := s.notification.delivered order notifications uid }
  | userDelivered {observer : Nat} {uid : String} {profile : ProfileVC} :
      s.profile.observers[observer]? = some uid → s.profile.delivered s.db uid = some profile →
      Step s (.userDelivered observer) { s with profile }
  | eventFetched {fetch : Nat} {eventID : String} {event : Option Event} :
      s.notification.fetches[fetch]? = some eventID →
      NotificationVC.fetchEvent s.db eventID = some event →
      Step s (.eventFetched fetch)
        { s with notification := s.notification.eventFetched fetch event }
  | reloadData : 0 < s.notification.reloads →
      Step s .reloadData { s with
        notification := { s.notification with reloads := s.notification.reloads - 1 }.reloadData }
  | cellForRow {row : Nat} {notification : NotificationVC} :
      s.notification.cellForRowAt row = some notification →
      Step s (.cellForRow row) { s with notification }
  | selectRow {row : Nat} : (s.notification.shown row).isSome = true →
      Step s (.selectRow row) (s.selectRow row)
  | editPressed {user : GUser} : s.profile.editBtn = true → s.profile.user = some user →
      Step s .editPressed { s with editing := some user }
  | editBack : s.editing.isSome = true → Step s .editBack { s with editing := none }
  | donePressed {user : GUser} : s.editing = some user →
      Step s .donePressed { s with
        editing := none
        uploads := s.uploads ++ (EditProfileInfoVC.uploadUserData user s.currentUser).toList }
  | uploaded {upload : Nat} {name url : String} {closure : EditProfileInfoVC.Upload} :
      s.uploads[upload]? = some closure →
      Step s (.uploaded upload name url) { s with
        db := s.db.applyAll (EditProfileInfoVC.uploaded closure name url)
        uploads := s.uploads.eraseIdx upload }

theorem Step.of_step (h : s.step a = some s') : Step s a s' := by
  have h := (step_eq_some.mp h).2
  cases a with
  | login => exact Option.some.inj h ▸ .login
  | mainDelivered observer =>
    simp only [stepRunning, Option.bind_eq_bind, Option.bind_eq_some_iff, Option.pure_def,
      Option.some.injEq] at h
    obtain ⟨uid, hobserver, events, hevents, rfl⟩ := h
    exact .mainDelivered hobserver hevents
  | notificationDelivered observer order =>
    simp only [stepRunning, Option.bind_eq_bind, Option.bind_eq_some_iff, Option.pure_def,
      Option.some.injEq] at h
    obtain ⟨uid, hobserver, notifications, hnotifications, rfl⟩ := h
    exact .notificationDelivered hobserver hnotifications
  | userDelivered observer =>
    simp only [stepRunning, Option.bind_eq_bind, Option.bind_eq_some_iff, Option.pure_def,
      Option.some.injEq] at h
    obtain ⟨uid, hobserver, profile, hprofile, rfl⟩ := h
    exact .userDelivered hobserver hprofile
  | eventFetched fetch =>
    simp only [stepRunning, Option.bind_eq_bind, Option.bind_eq_some_iff, Option.pure_def,
      Option.some.injEq] at h
    obtain ⟨eventID, hfetch, event, hevent, rfl⟩ := h
    exact .eventFetched hfetch hevent
  | cellForRow row =>
    obtain ⟨notification, hcell, rfl⟩ := Option.map_eq_some_iff.mp h
    exact .cellForRow hcell
  | editPressed =>
    simp only [stepRunning, Option.ite_none_right_eq_some, Option.map_eq_some_iff] at h
    obtain ⟨hbutton, user, huser, rfl⟩ := h
    exact .editPressed hbutton huser
  | donePressed =>
    obtain ⟨user, hediting, rfl⟩ := Option.map_eq_some_iff.mp h
    exact .donePressed hediting
  | uploaded upload name url =>
    obtain ⟨closure, hclosure, rfl⟩ := Option.map_eq_some_iff.mp h
    exact .uploaded hclosure
  | _ =>
    -- one guard, and then a single new state
    simp only [stepRunning, Option.ite_none_right_eq_some, Option.ite_none_left_eq_some,
      Bool.not_eq_true, Option.some.injEq] at h
    obtain ⟨hguard, rfl⟩ := h
    constructor
    exact hguard

theorem selectRow_eq (s : Device) (row : Nat) :
    ∃ db stopped, s.selectRow row = { s with db, stopped } := by
  unfold selectRow
  split
  · exact ⟨_, _, rfl⟩
  · exact ⟨_, _, rfl⟩

namespace Action

def reachesMain : Action → Bool
  | .login | .logout | .mainDidLoad | .refreshMain | .mainDelivered _ => true
  | _ => false

def reachesNotification : Action → Bool
  | .login | .logout | .notificationDidLoad | .refreshNotification => true
  | .notificationDelivered _ _ | .eventFetched _ | .reloadData | .cellForRow _ => true
  | _ => false

def reachesProfile : Action → Bool
  | .login | .logout | .profileDidLoad | .userDelivered _ => true
  | .editPressed | .editBack | .donePressed | .uploaded _ _ _ => true
  | _ => false

def changesUser : Action → Bool
  | .signIn _ | .logout => true
  | _ => false

def changesDatabase : Action → Bool
  | .write _ | .saveUser _ | .selectRow _ | .uploaded _ _ _ => true
  | _ => false

end Action

/-- What is left alone by the actions that do not reach it. -/
structure Frame (a : Action) (s s' : Device) : Prop where
  main : a.reachesMain = false → s'.main = s.main
  notification : a.reachesNotification = false → s'.notification = s.notification
  profile : a.reachesProfile = false →
    s'.profile = s.profile ∧ s'.editing = s.editing ∧ s'.uploads = s.uploads
  currentUser : a.changesUser = false → s'.currentUser = s.currentUser

theorem Step.frame (h : Step s a s') : Frame a s s' := by
  cases h with
  | @selectRow row =>
    obtain ⟨db, stopped, heq⟩ := s.selectRow_eq row
    rw [heq]
    constructor <;> intro _ <;> first | rfl | exact ⟨rfl, rfl, rfl⟩
  | _ => constructor <;> intro ha <;> first | rfl | exact ⟨rfl, rfl, rfl⟩ | cases ha

theorem Step.same_db (h : Step s a s') (ha : a.changesDatabase = false) : s'.db = s.db := by
  cases h <;> first | rfl | cases ha

end GetTogether.Device
