import GetTogether.EventAlertVC
import GetTogether.Realtime.Run

/-! The reminders of a device. The event screen holds a copy of an event the device
has received, and the reminder screen the copy of the event screen. Check marks are
saved for each event; requests are pending under their identifiers. -/
namespace GetTogether

open EventAlertVC

/-- A key of `childByAutoId`. -/
structure PushID where
  key : String
  pushed : key.length = 20

structure Phone where
  stored : List Event := []
  /-- The events of the last snapshot this device has received. -/
  received : List Event := []
  contentEvent : Option Event := none
  alertVC : Option EventAlertVC := none
  defaults : String → Option (List Bool) := fun _ => none
  pending : List Request := []

namespace Phone

inductive Action where
  /-- The organiser writes the event, on whatever device. -/
  | uploadEventData (eventID : PushID) (event : Event)
  | delivered
  | openEvent (row : Nat)
  | openAlert (now : ℚ)
  | didSelectRowAt (row : Nat) (now : ℚ)
  | closeAlert
  | closeEvent

/-- A request replaces the pending one of the same identifier. -/
def add (request : Request) (pending : List Request) : List Request :=
  request :: pending.filter (·.identifier ≠ request.identifier)

def removePendingNotificationRequests (identifier : String) (pending : List Request) :
    List Request :=
  pending.filter (·.identifier ≠ identifier)

def select (phone : Phone) (timeZone : TimeZone) (vc : EventAlertVC) (row : Nat) (now : ℚ) :
    Option Phone := do
  let isAlertOn ← vc.alertStatus[row]?
  let alertStatus := vc.alertStatus.set row !isAlertOn
  let result ← vc.setAlertDate timeZone now row
  return { phone with
    alertVC := some { vc with alertStatus }
    defaults := Function.update phone.defaults vc.event.eventID (some alertStatus)
    pending :=
      if isAlertOn then removePendingNotificationRequests result.2 phone.pending
      else add (vc.setLocalNotification timeZone result.1 result.2) phone.pending }

def step (timeZone : TimeZone) (phone : Phone) : Action → Option Phone
  | .uploadEventData eventID event => some { phone with
      stored := { event with eventID := eventID.key } ::
        phone.stored.filter (·.eventID ≠ eventID.key) }
  | .delivered => some { phone with received := phone.stored }
  | .openEvent row => do
    let event ← phone.received[row]?
    if phone.contentEvent = none then return { phone with contentEvent := some event } else none
  | .openAlert now => do
    let event ← phone.contentEvent
    let vc ← viewDidLoad event (phone.defaults event.eventID) timeZone now
    if phone.alertVC = none then return { phone with alertVC := some vc } else none
  | .didSelectRowAt row now => do
    let vc ← phone.alertVC
    if vc.tableIsHidden = false ∧ row < alertOptions.length then phone.select timeZone vc row now
    else none
  | .closeAlert => some { phone with alertVC := none }
  | .closeEvent =>
    if phone.alertVC = none then some { phone with contentEvent := none } else none

def isOn (phone : Phone) (eventID : String) (option : Nat) : Prop :=
  (phone.defaults eventID).bind (·[option]?) = some true

def isPending (phone : Phone) (identifier : String) : Prop :=
  identifier ∈ phone.pending.map (·.identifier)

end Phone

/-! Identifiers: of two events whose ids are equally long no options share one. -/

theorem suffix_inj {i j : Nat} (hi : i < 7) (hj : j < 7) (h : suffix i = suffix j) : i = j := by
  have hall : ∀ i < 7, ∀ j < 7, suffix i = suffix j → i = j := by decide
  exact hall i hi j hj h

theorem alertID_inj {a b : String} (hlength : a.length = b.length) {i j : Nat} (hi : i < 7)
    (hj : j < 7) : alertID a i = alertID b j ↔ a = b ∧ i = j := by
  constructor
  · intro h
    have hlist : a.toList ++ (suffix i).toList = b.toList ++ (suffix j).toList := by
      simpa [alertID] using congrArg String.toList h
    have hparts := List.append_inj hlist (by rw [String.length_toList, String.length_toList, hlength])
    exact ⟨String.toList_inj.mp hparts.1, suffix_inj hi hj (String.toList_inj.mp hparts.2)⟩
  · intro h
    rw [h.1, h.2]

/-! What adding and removing a request leaves pending. -/

namespace Phone

theorem mem_add {request other : Request} {pending : List Request} :
    other ∈ add request pending ↔
      other = request ∨ other ∈ pending ∧ other.identifier ≠ request.identifier := by
  simp [add]

theorem mem_removePending {identifier : String} {other : Request} {pending : List Request} :
    other ∈ removePendingNotificationRequests identifier pending ↔
      other ∈ pending ∧ other.identifier ≠ identifier := by
  simp [removePendingNotificationRequests]

theorem identifier_mem_add {request : Request} {pending : List Request} {identifier : String} :
    identifier ∈ (add request pending).map (·.identifier) ↔
      identifier = request.identifier ∨ identifier ∈ pending.map (·.identifier) := by
  simp only [List.mem_map, mem_add]
  constructor
  · rintro ⟨other, rfl | hold, rfl⟩
    · exact .inl rfl
    · exact .inr ⟨other, hold.1, rfl⟩
  · intro h
    by_cases heq : identifier = request.identifier
    · exact ⟨request, .inl rfl, heq.symm⟩
    · obtain ⟨other, hother, rfl⟩ := h.resolve_left heq
      exact ⟨other, .inr ⟨hother, heq⟩, rfl⟩

theorem identifier_mem_remove {identifier other : String} {pending : List Request} :
    other ∈ (removePendingNotificationRequests identifier pending).map (·.identifier) ↔
      other ∈ pending.map (·.identifier) ∧ other ≠ identifier := by
  simp only [List.mem_map, mem_removePending]
  constructor
  · rintro ⟨request, hmem, rfl⟩
    exact ⟨⟨request, hmem.1, rfl⟩, hmem.2⟩
  · rintro ⟨⟨request, hmem, rfl⟩, hne⟩
    exact ⟨request, ⟨hmem, hne⟩, rfl⟩

def toggled (phone : Phone) (timeZone : TimeZone) (vc : EventAlertVC) (row : Nat)
    (isAlertOn : Bool) (date : ℚ) : Phone :=
  { phone with
    alertVC := some { vc with alertStatus := vc.alertStatus.set row !isAlertOn }
    defaults := Function.update phone.defaults vc.event.eventID
      (some (vc.alertStatus.set row !isAlertOn))
    pending :=
      if isAlertOn then
        removePendingNotificationRequests (alertID vc.event.eventID row) phone.pending
      else add (vc.setLocalNotification timeZone (date - offset row)
        (alertID vc.event.eventID row)) phone.pending }

section Toggled

variable (phone : Phone) (timeZone : TimeZone) (vc : EventAlertVC) (row : Nat) (isAlertOn : Bool)
  (date : ℚ)

@[simp] theorem toggled_alertVC : (phone.toggled timeZone vc row isAlertOn date).alertVC =
    some { vc with alertStatus := vc.alertStatus.set row !isAlertOn } := rfl

@[simp] theorem toggled_defaults : (phone.toggled timeZone vc row isAlertOn date).defaults =
    Function.update phone.defaults vc.event.eventID
      (some (vc.alertStatus.set row !isAlertOn)) := rfl

end Toggled

theorem select_eq_some {timeZone : TimeZone} {phone phone' : Phone} {vc : EventAlertVC}
    {row : Nat} {now : ℚ} (hrow : row < 7) :
    phone.select timeZone vc row now = some phone' ↔
      ∃ isAlertOn date, vc.alertStatus[row]? = some isAlertOn ∧
        eventDate timeZone vc.event = some date ∧
        phone' = phone.toggled timeZone vc row isAlertOn date := by
  unfold select setAlertDate toggled
  rw [if_pos hrow]
  cases hstatus : vc.alertStatus[row]? with
  | none => simp
  | some isAlertOn =>
    cases hdate : eventDate timeZone vc.event with
    | none => simp
    | some date => simp [eq_comm]

inductive Step (timeZone : TimeZone) (phone : Phone) : Action → Phone → Prop
  | uploadEventData (eventID : PushID) (event : Event) :
      Step timeZone phone (.uploadEventData eventID event) { phone with
        stored := { event with eventID := eventID.key } ::
          phone.stored.filter (·.eventID ≠ eventID.key) }
  | delivered : Step timeZone phone .delivered { phone with received := phone.stored }
  | openEvent {row : Nat} {event : Event} : phone.received[row]? = some event →
      Step timeZone phone (.openEvent row) { phone with contentEvent := some event }
  | openAlert {now : ℚ} {event : Event} {vc : EventAlertVC} : phone.contentEvent = some event →
      viewDidLoad event (phone.defaults event.eventID) timeZone now = some vc →
      Step timeZone phone (.openAlert now) { phone with alertVC := some vc }
  | didSelectRowAt {row : Nat} {now : ℚ} {vc : EventAlertVC} {isAlertOn : Bool} {date : ℚ} :
      phone.alertVC = some vc → row < 7 → vc.alertStatus[row]? = some isAlertOn →
      eventDate timeZone vc.event = some date →
      Step timeZone phone (.didSelectRowAt row now) (phone.toggled timeZone vc row isAlertOn date)
  | closeAlert : Step timeZone phone .closeAlert { phone with alertVC := none }
  | closeEvent : Step timeZone phone .closeEvent { phone with contentEvent := none }

theorem Step.of_step {timeZone : TimeZone} {phone phone' : Phone} {action : Action}
    (h : phone.step timeZone action = some phone') : Step timeZone phone action phone' := by
  cases action with
  | uploadEventData eventID event => exact Option.some.inj h ▸ .uploadEventData eventID event
  | delivered => exact Option.some.inj h ▸ .delivered
  | openEvent row =>
    simp only [step, Option.bind_eq_bind, Option.bind_eq_some_iff, Option.pure_def,
      Option.ite_none_right_eq_some, Option.some.injEq] at h
    obtain ⟨event, hevent, -, rfl⟩ := h
    exact .openEvent hevent
  | openAlert now =>
    simp only [step, Option.bind_eq_bind, Option.bind_eq_some_iff, Option.pure_def,
      Option.ite_none_right_eq_some, Option.some.injEq] at h
    obtain ⟨event, hevent, vc, hvc, -, rfl⟩ := h
    exact .openAlert hevent hvc
  | didSelectRowAt row now =>
    simp only [step, Option.bind_eq_bind, Option.bind_eq_some_iff,
      Option.ite_none_right_eq_some] at h
    obtain ⟨vc, hvc, ⟨-, hrow⟩, hselect⟩ := h
    obtain ⟨isAlertOn, date, hstatus, hdate, rfl⟩ := (select_eq_some hrow).mp hselect
    exact .didSelectRowAt hvc hrow hstatus hdate
  | closeAlert => exact Option.some.inj h ▸ .closeAlert
  | closeEvent =>
    simp only [step, Option.ite_none_right_eq_some, Option.some.injEq] at h
    exact h.2 ▸ .closeEvent

end Phone

end GetTogether
