import GetTogether.DataModels
import GetTogether.DateFormatter

/-! The main screen lists the events of the database that the signed-in account
hosts or has joined, latest date first. Every query installs one more observer for
the account it was made for. -/
namespace GetTogether

open Realtime

structure MainVC where
  /-- Whether `viewDidLoad` has run; the screen hears of logins and logouts from then on. -/
  isLoaded : Bool := false
  hostEventData : List Event := []
  joinedEventData : List Event := []
  /-- The accounts of the observers of `queryHostEventData`; none is ever removed. -/
  observers : List String := []
  deriving DecidableEq, Repr

namespace MainVC

/-- All events as `queryOrdered(byChild: "date")` delivers them; every record is cast. -/
def readEvents (db : Store) : Option (List Event) :=
  ((db.children ["event"]).mapM fun eventID => Event.read db ["event", eventID]).map
    fun events => events.insertionSort fun a b => a.date ≤ b.date

def hosts (uid : String) (event : Event) : Bool := event.organiserID = uid

def joins (uid : String) (event : Event) : Bool := uid ∈ event.memberIDs

def myEvent (uid : String) (events : List Event) : List Event := events.filter (hosts uid)

def joinedEvent (uid : String) (events : List Event) : List Event := events.filter (joins uid)

def queryHostEventData (vc : MainVC) (currentUser : String) : MainVC :=
  { vc with observers := vc.observers ++ [currentUser] }

/-- The guard on `Auth.auth().currentUser` in front of every query. -/
def queryIfSignedIn (vc : MainVC) : Option String → MainVC
  | some currentUser => vc.queryHostEventData currentUser
  | none => vc

def viewDidLoad (vc : MainVC) (currentUser : Option String) : MainVC :=
  { vc with isLoaded := true }.queryIfSignedIn currentUser

def refreshData (vc : MainVC) (currentUser : Option String) : MainVC :=
  vc.queryIfSignedIn currentUser

def didUserLogin (vc : MainVC) (currentUser : Option String) : MainVC :=
  vc.queryIfSignedIn currentUser

def didUserLogout (vc : MainVC) : MainVC := { vc with hostEventData := [], joinedEventData := [] }

/-- The callback of `queryHostEventData` for the account it was installed for. -/
def delivered (vc : MainVC) (events : List Event) (currentUser : String) : MainVC :=
  { vc with
    joinedEventData := (joinedEvent currentUser events).reverse
    hostEventData := (myEvent currentUser events).reverse }

/-- The date `cellForRowAt` reads, in the zone of the device. -/
def eventDate (timeZone : TimeZone) (event : Event) : Option ℚ :=
  (dateFormatter timeZone).date event.date

/-- The text of the date in a cell; a date that cannot be read leaves the text it had. -/
def dateText (timeZone : TimeZone) (now : ℚ) (event : Event) : Option String :=
  (eventDate timeZone event).map fun eventDate =>
    if eventDate < now then "已過期" else event.date

theorem queryIfSignedIn_same (vc : MainVC) (currentUser : Option String) :
    (vc.queryIfSignedIn currentUser).hostEventData = vc.hostEventData ∧
      (vc.queryIfSignedIn currentUser).joinedEventData = vc.joinedEventData := by
  cases currentUser with
  | none => exact ⟨rfl, rfl⟩
  | some uid => exact ⟨rfl, rfl⟩

theorem queryIfSignedIn_isLoaded (vc : MainVC) (currentUser : Option String) :
    (vc.queryIfSignedIn currentUser).isLoaded = vc.isLoaded := by
  cases currentUser <;> rfl

theorem mem_hostEventData (vc : MainVC) {uid : String} {events : List Event} {event : Event} :
    event ∈ (vc.delivered events uid).hostEventData ↔
      event ∈ events ∧ event.organiserID = uid := by
  simp [delivered, myEvent, hosts]

theorem mem_joinedEventData (vc : MainVC) {uid : String} {events : List Event} {event : Event} :
    event ∈ (vc.delivered events uid).joinedEventData ↔
      event ∈ events ∧ uid ∈ event.memberIDs := by
  simp [delivered, joinedEvent, joins]

end MainVC

end GetTogether
