import GetTogether.DataModels

/-! The notification screen. Its rows come from one array, sorted when a snapshot
arrives; the events they open are appended to another one as their fetches come back. -/
namespace GetTogether

open Realtime

structure NotificationVC where
  /-- Whether `viewDidLoad` has run; the screen hears of logins and logouts from then on. -/
  isLoaded : Bool := false
  notificationData : List GNotification := []
  joinedEventData : List Event := []
  /-- The accounts of the observers of `queryNotification`; none is ever removed. -/
  observers : List String := []
  fetches : List String := []
  reloads : Nat := 0
  /-- The rows of the table since its last reload, and what the cells made so far show. -/
  cells : List (Option GNotification) := []
  deriving DecidableEq, Repr

namespace NotificationVC

/-- All notifications as `queryOrdered(byChild: "time")` delivers them; every record is cast. -/
def readNotifications (db : Store) : Option (List GNotification) :=
  ((db.children ["notification"]).mapM fun notificationID =>
    GNotification.read db ["notification", notificationID]).map
      fun notifications => notifications.insertionSort fun a b => a.time ≤ b.time

/-- The fetch of one event: nothing when there is no such event, else a cast of its record. -/
def fetchEvent (db : Store) (eventID : String) : Option (Option Event) :=
  if db.contains ["event", eventID] then (Event.read db ["event", eventID]).map some
  else some none

/-- `sort` by descending time; where the times are equal any order may come out. -/
structure NewestFirst where
  sort : List GNotification → List GNotification
  perm : ∀ notifications, (sort notifications).Perm notifications
  sorted : ∀ notifications, (sort notifications).Pairwise fun a b => b.time ≤ a.time

def NewestFirst.stable : NewestFirst where
  sort notifications := notifications.insertionSort fun a b => b.time ≤ a.time
  perm := List.perm_insertionSort _
  sorted := by
    have : Std.Total fun a b : GNotification => b.time ≤ a.time :=
      ⟨fun a b => String.le_total b.time a.time⟩
    have : IsTrans GNotification fun a b => b.time ≤ a.time :=
      ⟨fun a b c hab hbc => String.le_trans hbc hab⟩
    exact List.pairwise_insertionSort _

/-- What a row of the table shows, once its cell is made. -/
def shown (vc : NotificationVC) (row : Nat) : Option GNotification := (vc.cells[row]?).join

def reloadData (vc : NotificationVC) : NotificationVC :=
  { vc with cells := List.replicate vc.notificationData.length none }

def queryNotification (vc : NotificationVC) (currentUser : String) : NotificationVC :=
  let vc := if vc.notificationData.length = 0 then vc.reloadData else vc
  { vc with observers := vc.observers ++ [currentUser] }

/-- The guard on `Auth.auth().currentUser` in front of every query. -/
def queryIfSignedIn (vc : NotificationVC) : Option String → NotificationVC
  | some currentUser => vc.queryNotification currentUser
  | none => vc

def viewDidLoad (vc : NotificationVC) (currentUser : Option String) : NotificationVC :=
  { vc with isLoaded := true }.queryIfSignedIn currentUser

def refreshData (vc : NotificationVC) (currentUser : Option String) : NotificationVC :=
  vc.queryIfSignedIn currentUser

def didUserLogin (vc : NotificationVC) (currentUser : Option String) : NotificationVC :=
  vc.queryIfSignedIn currentUser

def didUserLogout (vc : NotificationVC) : NotificationVC :=
  { vc with notificationData := [], joinedEventData := [] }.reloadData

def myNotification (uid : String) (notifications : List GNotification) : List GNotification :=
  notifications.filter fun notification => uid = notification.userID

/-- The callback of `queryNotification` for the account it was installed for. The table
is not reloaded here. -/
def delivered (vc : NotificationVC) (order : NewestFirst) (notifications : List GNotification)
    (currentUser : String) : NotificationVC :=
  let notificationData := order.sort (myNotification currentUser notifications)
  { vc with
    notificationData
    joinedEventData := []
    fetches := vc.fetches ++ notificationData.map (·.eventID) }

/-- The fetch at an index comes back; nothing is appended for a missing event. -/
def eventFetched (vc : NotificationVC) (fetch : Nat) : Option Event → NotificationVC
  | none => { vc with fetches := vc.fetches.eraseIdx fetch }
  | some event =>
    { vc with
      fetches := vc.fetches.eraseIdx fetch
      joinedEventData := vc.joinedEventData ++ [event]
      reloads := vc.reloads + 1 }

def cellForRowAt (vc : NotificationVC) (row : Nat) : Option NotificationVC := do
  let notification ← vc.notificationData[row]?
  if row < vc.cells.length then return { vc with cells := vc.cells.set row (some notification) }
  else none

def didSelectRowAt (vc : NotificationVC) (row : Nat) : Option (List Write) := do
  let notification ← vc.notificationData[row]?
  return [.updateChildValues ["notification", notification.notificationID]
    [("isRead", .bool true)]]

def prepare (vc : NotificationVC) (row : Nat) : Option (Event × GNotification) := do
  let selectedEvent ← vc.joinedEventData[row]?
  let selectedNotification ← vc.notificationData[row]?
  return (selectedEvent, selectedNotification)

theorem mem_notificationData (vc : NotificationVC) {order : NewestFirst}
    {notifications : List GNotification} {uid : String} {notification : GNotification} :
    notification ∈ (vc.delivered order notifications uid).notificationData ↔
      notification ∈ notifications ∧ notification.userID = uid := by
  simp [delivered, (order.perm _).mem_iff, myNotification, eq_comm]

theorem shown_reloadData (vc : NotificationVC) (row : Nat) : vc.reloadData.shown row = none := by
  simp only [shown, reloadData, List.getElem?_replicate]
  split <;> rfl

theorem queryIfSignedIn_same (vc : NotificationVC) (currentUser : Option String) :
    (vc.queryIfSignedIn currentUser).notificationData = vc.notificationData ∧
      (vc.queryIfSignedIn currentUser).joinedEventData = vc.joinedEventData ∧
      ∀ row notification, (vc.queryIfSignedIn currentUser).shown row = some notification →
        vc.shown row = some notification := by
  cases currentUser with
  | none => exact ⟨rfl, rfl, fun _ _ h => h⟩
  | some uid =>
    by_cases hempty : vc.notificationData.length = 0
    · simp only [queryIfSignedIn, queryNotification, hempty, if_true]
      refine ⟨rfl, rfl, fun row notification h => ?_⟩
      have hnone := vc.shown_reloadData row
      exact absurd (hnone.symm.trans h) nofun
    · simp only [queryIfSignedIn, queryNotification, hempty, if_false]
      exact ⟨trivial, trivial, fun _ _ h => h⟩

theorem queryIfSignedIn_isLoaded (vc : NotificationVC) (currentUser : Option String) :
    (vc.queryIfSignedIn currentUser).isLoaded = vc.isLoaded := by
  cases currentUser with
  | none => rfl
  | some uid =>
    simp only [queryIfSignedIn, queryNotification]
    split <;> rfl

theorem cellForRowAt_eq_some {vc vc' : NotificationVC} {row : Nat}
    (h : vc.cellForRowAt row = some vc') :
    vc'.notificationData = vc.notificationData ∧ vc'.joinedEventData = vc.joinedEventData ∧
      ∀ other notification, vc'.shown other = some notification →
        vc.shown other = some notification ∨ vc.notificationData[other]? = some notification := by
  simp only [cellForRowAt, Option.bind_eq_bind, Option.bind_eq_some_iff,
    Option.ite_none_right_eq_some, Option.pure_def, Option.some.injEq] at h
  obtain ⟨made, hmade, hrow, rfl⟩ := h
  refine ⟨rfl, rfl, fun other notification hshown => ?_⟩
  by_cases hother : row = other
  · subst hother
    have hsame : made = notification := by simpa [shown, hrow] using hshown
    exact .inr (hsame ▸ hmade)
  · have hset : (vc.cells.set row (some made))[other]? = vc.cells[other]? := by
      rw [List.getElem?_set_ne hother]
    simp only [shown, hset] at hshown
    exact .inl hshown

end NotificationVC

end GetTogether
