import GetTogether.AddEventVC
import GetTogether.Realtime.Run
import Mathlib.Data.Rat.Defs

/-! The event screen with the properties that are implicitly unwrapped. They are
filled when the screen is opened or by callbacks that may fail or never come; an
access to one that is still nil traps. -/
namespace GetTogether

open Realtime

structure CLLocation where
  latitude : ℚ
  longitude : ℚ
  deriving DecidableEq

structure CLPlacemark where
  location : Option CLLocation
  locality : Option String
  deriving DecidableEq

structure MKPointAnnotation where
  coordinate : CLLocation
  title : Option String
  deriving DecidableEq

structure MKCoordinateRegion where
  center : CLLocation
  latitudeDelta : ℚ
  longitudeDelta : ℚ
  deriving DecidableEq

inductive Geocoding where
  | error
  | noPlacemarks
  | placemarks (first : CLPlacemark) (rest : List CLPlacemark)
  deriving DecidableEq

def Geocoding.location : Geocoding → Option CLLocation
  | .placemarks first _ => first.location
  | _ => none

def Geocoding.locality : Geocoding → Option String
  | .placemarks first _ => first.locality
  | _ => none

/-- The screen `prepare(for:)` comes from, with what it takes from the selected row. -/
inductive Opening where
  | mainVC (selected : Option Event)
  | notificationVC (selected : Option (Event × GNotification))
  deriving DecidableEq

def Opening.selected : Opening → Bool
  | .mainVC selected => selected.isSome
  | .notificationVC selected => selected.isSome

def Opening.fromNotification : Opening → Bool
  | .mainVC _ => false
  | .notificationVC _ => true

structure EventScreen where
  currentUser : Option String
  event : Option Event
  notification : Option GNotification
  location : Option CLLocation := none
  annotation : Option MKPointAnnotation := none
  region : Option MKCoordinateRegion := none
  memberData : List GUser := []
  answerSelector : Option AnswerSelector := none
  isLoaded : Bool := false
  isGeocoding : Bool := false
  trapped : Bool := false
  deriving DecidableEq

namespace EventScreen

/-- The destination of the segue before its `viewDidLoad`. -/
def opened (currentUser : Option String) : Opening → EventScreen
  | .mainVC selected => { currentUser, event := selected, notification := none }
  | .notificationVC selected =>
    { currentUser, event := selected.map (·.1), notification := selected.map (·.2) }

inductive Action where
  | viewDidLoad
  | geocoded (result : Geocoding)
  | queryUserData (users : List GUser)
  | queryEventList (eventList : EventList) (user : Option GUser) (time notificationID : String)
  | edit
  | goToMapPressed
  | comment
  | dropOut
  | agree
  | reject
  deriving DecidableEq

def trap (screen : EventScreen) : EventScreen := { screen with trapped := true }

def unwrap {α : Type} (screen : EventScreen) (value : Option α)
    (body : α → Option EventScreen) : Option EventScreen :=
  match value with
  | none => some screen.trap
  | some value => body value

/-- The screen of the other modules, once there is an event. -/
def content (screen : EventScreen) (currentUser : String) (event : Event) : EventContentVC where
  currentUser := currentUser
  event := event
  notification := screen.notification
  memberData := screen.memberData
  answerSelector := screen.answerSelector

/-- The completion of the geocoder fills all three properties or none. -/
def setLocationAnnotation (screen : EventScreen) (result : Geocoding) : EventScreen :=
  match result.location with
  | none => { screen with isGeocoding := false }
  | some location => { screen with
      annotation := some ⟨location, result.locality⟩
      region := some ⟨location, 1 / 100, 1 / 100⟩
      location := some location
      isGeocoding := false }

/-- `AddEventVC.viewDidLoad` in edit mode shows the annotation and the region it was given. -/
def editEvent (screen : EventScreen) : Option EventScreen :=
  screen.unwrap screen.event fun _ =>
    screen.unwrap screen.annotation fun _ =>
      screen.unwrap screen.region fun _ => some screen

def perform (screen : EventScreen) : Action → Option EventScreen
  | .viewDidLoad =>
    screen.unwrap screen.event fun _ => some { screen with isLoaded := true, isGeocoding := true }
  | .geocoded result =>
    if screen.isGeocoding then some (screen.setLocationAnnotation result) else none
  | .queryUserData users =>
    screen.unwrap screen.event fun event =>
      if users.any (·.userID = event.organiserID) then
        some { screen with memberData := users.filter (·.userID ∈ event.memberIDs) }
      else some screen
  | .queryEventList eventList user time notificationID =>
    match user with
    | none => some screen
    | some user => screen.unwrap screen.event fun event =>
        if eventList.eventID = event.eventID ∧ eventList.isReply = false then
          some { screen with answerSelector := some { user, time, notificationID } }
        else some screen
  | .edit => do
    let uid ← screen.currentUser
    screen.unwrap screen.event fun event =>
      if (screen.content uid event).offersEdit then screen.editEvent else none
  | .goToMapPressed =>
    screen.unwrap screen.location fun _ => screen.unwrap screen.event fun _ => some screen
  | .comment => screen.unwrap screen.event fun _ => some screen
  | .dropOut => do
    let uid ← screen.currentUser
    screen.unwrap screen.event fun event =>
      if (screen.content uid event).offersEdit = false ∧
        (screen.content uid event).showsDropOutAlert then some screen else none
  | .agree => do
    let uid ← screen.currentUser
    let _ ← screen.answerSelector
    screen.unwrap screen.event fun event =>
      some { screen with event := some (screen.content uid event).agreed.event
                         answerSelector := none }
  | .reject => do
    let _ ← screen.currentUser
    let _ ← screen.answerSelector
    screen.unwrap screen.notification fun _ => screen.unwrap screen.event fun _ =>
      some { screen with answerSelector := none }

/-- Nothing runs after a trap, and nothing before `viewDidLoad`, which runs once. -/
def enabled (screen : EventScreen) (action : Action) : Bool :=
  !screen.trapped && (screen.isLoaded != decide (action = .viewDidLoad))

def step (screen : EventScreen) (action : Action) : Option EventScreen :=
  if screen.enabled action then screen.perform action else none

theorem unwrap_found {α : Type} {screen : EventScreen} {value : Option α} {found : α}
    (h : value = some found) (body : α → Option EventScreen) :
    screen.unwrap value body = body found := by
  rw [h]
  rfl

theorem unwrap_nil {α : Type} {screen : EventScreen} {value : Option α} (h : value = none)
    (body : α → Option EventScreen) : screen.unwrap value body = some screen.trap := by
  rw [h]
  rfl

end EventScreen

end GetTogether
