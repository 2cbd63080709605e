import GetTogether.EventContentVC
import GetTogether.DateFormatter

/-! The reminders of one event. The screen holds the event it was opened with and a
copy of the check marks that the user defaults keep for it. -/
namespace GetTogether

/-- The part of a date that a trigger is made of; it has no year. -/
structure DateComponents where
  month : Nat
  day : Nat
  hour : Nat
  minute : Nat
  deriving DecidableEq, Repr

structure Request where
  identifier : String
  title : String
  body : String
  components : DateComponents
  deriving DecidableEq, Repr

structure EventAlertVC where
  event : Event
  alertStatus : List Bool := [false, false, false, false, false, false, false]
  /-- The table of an expired event is not shown. -/
  tableIsHidden : Bool := false
  deriving DecidableEq, Repr

namespace EventAlertVC

def alertOptions : List String :=
  ["活動開始時間", "5分鐘前", "15分鐘前", "30分鐘前", "1小時前", "3小時前", "1天前"]

/-- How many seconds before the event an option reminds. -/
def offset : Nat → ℚ
  | 1 => 5 * 60
  | 2 => 15 * 60
  | 3 => 30 * 60
  | 4 => 60 * 60
  | 5 => 3 * 60 * 60
  | 6 => 24 * 60 * 60
  | _ => 0

def suffix : Nat → String
  | 1 => "5m"
  | 2 => "15m"
  | 3 => "30m"
  | 4 => "1h"
  | 5 => "3h"
  | 6 => "1d"
  | _ => ""

def alertID (eventID : String) (option : Nat) : String := eventID ++ suffix option

/-- The date `viewDidLoad` and `setAlertDate` read, in the zone of the device. -/
def eventDate (timeZone : TimeZone) (event : Event) : Option ℚ :=
  (dateFormatter timeZone).date event.date

/-- Whether `viewDidLoad` hides the table; a date that cannot be read is unwrapped and traps. -/
def isExpired (timeZone : TimeZone) (now : ℚ) (event : Event) : Option Bool :=
  (eventDate timeZone event).map fun eventDate => decide (eventDate < now)

def alertDate (timeZone : TimeZone) (now : ℚ) (event : Event) : Option String :=
  (isExpired timeZone now event).map fun isExpired => if isExpired then "活動已過期" else event.date

def viewDidLoad (event : Event) (saved : Option (List Bool)) (timeZone : TimeZone) (now : ℚ) :
    Option EventAlertVC := do
  let isExpired ← isExpired timeZone now event
  return match saved with
    | some alertOptions => { event, alertStatus := alertOptions, tableIsHidden := isExpired }
    | none => { event, tableIsHidden := isExpired }

/-- The date is read again for every option and unwrapped; an option the table does not
have stands for the current date. -/
def setAlertDate (vc : EventAlertVC) (timeZone : TimeZone) (now : ℚ) (option : Nat) :
    Option (ℚ × String) :=
  if option < 7 then
    (eventDate timeZone vc.event).map fun date =>
      (date - offset option, alertID vc.event.eventID option)
  else some (now, vc.event.eventID)

/-- `Calendar.current` counts in the zone of the device. -/
def components (timeZone : TimeZone) (date : ℚ) : DateComponents :=
  let civil := (dateFormatter timeZone).civil date
  ⟨civil.month, civil.day, civil.hour, civil.minute⟩

def setLocalNotification (vc : EventAlertVC) (timeZone : TimeZone) (date : ℚ)
    (alertID : String) : Request where
  identifier := alertID
  title := "您的活動" ++ bracketed vc.event.title ++ "即將到來"
  body := "別忘了赴約喔：）"
  components := components timeZone date

end EventAlertVC

end GetTogether
