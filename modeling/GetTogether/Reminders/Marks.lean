import GetTogether.Reminders

/-! The saved check marks against the pending requests. -/
namespace GetTogether.Phone

open Realtime EventAlertVC

/-- Every event the device works with lies under a push id. -/
structure Keyed (phone : Phone) : Prop where
  stored : ∀ event ∈ phone.stored, event.eventID.length = 20
  received : ∀ event ∈ phone.received, event.eventID.length = 20
  content : ∀ event, phone.contentEvent = some event → event.eventID.length = 20
  alert : ∀ vc, phone.alertVC = some vc → vc.event.eventID.length = 20

def allOff : List Bool := [false, false, false, false, false, false, false]

structure Truthful (phone : Phone) : Prop where
  saved : ∀ eventID flags, phone.defaults eventID = some flags → flags.length = 7
  screen : ∀ vc, phone.alertVC = some vc →
    vc.alertStatus = (phone.defaults vc.event.eventID).getD allOff
  marks : ∀ (eventID : PushID) (option : Nat), option < 7 →
    (phone.isOn eventID.key option ↔ phone.isPending (alertID eventID.key option))

section Step

variable {timeZone : TimeZone} {phone phone' : Phone} {action : Action}

theorem viewDidLoad_alertStatus {event : Event} {saved : Option (List Bool)} {now : ℚ}
    {vc : EventAlertVC} (h : viewDidLoad event saved timeZone now = some vc) :
    vc.event = event ∧ vc.alertStatus = saved.getD allOff := by
  unfold viewDidLoad at h
  simp only [Option.bind_eq_bind, Option.bind_eq_some_iff, Option.pure_def,
    Option.some.injEq] at h
  obtain ⟨isExpired, -, heq⟩ := h
  cases saved with
  | none => exact heq ▸ ⟨rfl, rfl⟩
  | some flags => exact heq ▸ ⟨rfl, rfl⟩

theorem Keyed.step (hkeyed : Keyed phone) (h : Step timeZone phone action phone') :
    Keyed phone' := by
  cases h with
  | uploadEventData eventID event =>
    refine { hkeyed with stored := fun other hother => ?_ }
    rcases List.mem_cons.mp hother with rfl | hold
    · exact eventID.pushed
    · exact hkeyed.stored other (List.mem_filter.mp hold).1
  | delivered => exact { hkeyed with received := hkeyed.stored }
  | openEvent hrow =>
    have hevent := hkeyed.received _ (List.mem_of_getElem? hrow)
    exact { hkeyed with content := fun event heq => Option.some.inj heq ▸ hevent }
  | openAlert hevent hvc =>
    have hsame := (viewDidLoad_alertStatus hvc).1
    have hpushed := hkeyed.content _ hevent
    refine { hkeyed with alert := fun vc heq => ?_ }
    rw [← Option.some.inj heq, hsame]
    exact hpushed
  | didSelectRowAt hvc =>
    have hpushed := hkeyed.alert _ hvc
    exact { hkeyed with alert := fun vc heq => Option.some.inj heq ▸ hpushed }
  | closeAlert => exact { hkeyed with alert := fun vc heq => by simp at heq }
  | closeEvent => exact { hkeyed with content := fun event heq => by simp at heq }

theorem isOn_toggled {vc : EventAlertVC} {row option : Nat} {isAlertOn : Bool} {date : ℚ}
    (hscreen : vc.alertStatus = (phone.defaults vc.event.eventID).getD allOff)
    (hrow : vc.alertStatus[row]? = some isAlertOn) (eventID : String) :
    (phone.toggled timeZone vc row isAlertOn date).isOn eventID option ↔
      if eventID = vc.event.eventID ∧ option = row then isAlertOn = false
      else phone.isOn eventID option := by
  unfold isOn
  rw [toggled_defaults]
  by_cases hevent : eventID = vc.event.eventID
  · rw [hevent, Function.update_self]
    by_cases hoption : option = row
    · have hlt : row < vc.alertStatus.length := (List.getElem?_eq_some_iff.mp hrow).1
      simp [hoption, hlt]
    · have hne : row ≠ option := fun h => hoption h.symm
      have hold : (phone.defaults vc.event.eventID).bind (·[option]?) = some true ↔
          vc.alertStatus[option]? = some true := by
        rw [hscreen]
        cases hsaved : phone.defaults vc.event.eventID with
        | none =>
          have hoff : ∀ flag ∈ allOff, flag = false := by decide
          simp only [Option.bind_none, reduceCtorEq, Option.getD_none, false_iff]
          exact fun h => absurd (hoff true (List.mem_of_getElem? h)) (by simp)
        | some flags => simp
      simp only [hoption, and_false, if_false, hold]
      simp [hne]
  · rw [Function.update_of_ne hevent]
    simp [hevent]

theorem isPending_toggled {vc : EventAlertVC} {row : Nat} {isAlertOn : Bool} {date : ℚ}
    (identifier : String) :
    (phone.toggled timeZone vc row isAlertOn date).isPending identifier ↔
      if identifier = alertID vc.event.eventID row then isAlertOn = false
      else phone.isPending identifier := by
  unfold isPending toggled
  cases isAlertOn with
  | true =>
    simp only [if_true, identifier_mem_remove]
    split <;> simp_all
  | false =>
    simp only [Bool.false_eq_true, if_false, identifier_mem_add]
    split <;> simp_all [setLocalNotification]

theorem Truthful.step (htruthful : Truthful phone) (hkeyed : Keyed phone)
    (h : Step timeZone phone action phone') : Truthful phone' := by
  cases h with
  | uploadEventData | delivered | openEvent | closeEvent =>
    exact ⟨htruthful.saved, htruthful.screen, htruthful.marks⟩
  | openAlert hevent hvc =>
    refine ⟨htruthful.saved, fun vc heq => ?_, htruthful.marks⟩
    have hstatus := viewDidLoad_alertStatus hvc
    rw [← Option.some.inj heq, hstatus.1]
    exact hstatus.2
  | closeAlert => exact ⟨htruthful.saved, fun vc heq => by simp at heq, htruthful.marks⟩
  | @didSelectRowAt row now vc isAlertOn date hvc hrow hstatus hdate =>
    have hscreen := htruthful.screen vc hvc
    have hlength : vc.alertStatus.length = 7 := by
      rw [hscreen]
      cases hsaved : phone.defaults vc.event.eventID with
      | none => rfl
      | some flags => exact htruthful.saved _ flags hsaved
    refine ⟨fun eventID flags hflags => ?_, fun shown heq => ?_, fun eventID option hoption => ?_⟩
    · rw [toggled_defaults] at hflags
      by_cases hevent : eventID = vc.event.eventID
      · rw [hevent, Function.update_self] at hflags
        rw [← Option.some.inj hflags, List.length_set, hlength]
      · rw [Function.update_of_ne hevent] at hflags
        exact htruthful.saved eventID flags hflags
    · rw [toggled_alertVC] at heq
      rw [← Option.some.inj heq]
      simp
    · have hpushed : eventID.key.length = vc.event.eventID.length :=
        eventID.pushed.trans (hkeyed.alert vc hvc).symm
      rw [isOn_toggled hscreen hstatus, isPending_toggled, htruthful.marks eventID option hoption]
      simp only [alertID_inj hpushed hoption hrow]

end Step

theorem truthful_reachable {timeZone : TimeZone} {phone : Phone}
    (h : Reachable (step timeZone) {} phone) : Keyed phone ∧ Truthful phone := by
  refine h.invariant (fun phone => Keyed phone ∧ Truthful phone) ⟨?_, ?_⟩ ?_
  · constructor <;> simp
  · constructor <;> simp [isOn, isPending]
  · intro phone action phone' hboth hstep
    exact ⟨hboth.1.step (.of_step hstep), hboth.2.step hboth.1 (.of_step hstep)⟩

/-- In every state an option is marked exactly when its request is pending, and a tap on one
option of one event leaves the requests of all others as they were. -/
theorem check_marks_truthful {timeZone : TimeZone} {phone : Phone}
    (h : Reachable (step timeZone) {} phone) (eventID : PushID) {option : Nat}
    (hoption : option < 7) :
    (phone.isOn eventID.key option ↔ phone.isPending (alertID eventID.key option)) ∧
      ∀ row now phone', phone.step timeZone (.didSelectRowAt row now) = some phone' →
        (∀ vc, phone.alertVC = some vc → ¬ (eventID.key = vc.event.eventID ∧ option = row)) →
        (phone'.isPending (alertID eventID.key option) ↔
          phone.isPending (alertID eventID.key option)) := by
  obtain ⟨hkeyed, htruthful⟩ := truthful_reachable h
  refine ⟨htruthful.marks eventID option hoption, fun row now phone' hstep hother => ?_⟩
  cases Step.of_step hstep with
  | @didSelectRowAt _ _ vc isAlertOn date hvc hrow hstatus hdate =>
    have hpushed : eventID.key.length = vc.event.eventID.length :=
      eventID.pushed.trans (hkeyed.alert vc hvc).symm
    rw [isPending_toggled]
    simp only [alertID_inj hpushed hoption hrow, hother vc hvc, if_false]

def partyID : PushID := ⟨"-LGHIJKLMNOPQRSTUVWX", by decide⟩

def party (date : String) : Event :=
  ⟨"", "alice", "Party", ["", "bob"], date, "Taipei", "fun", "party.jpg"⟩

def fiveMinutes : List Action :=
  [.uploadEventData partyID (party "2018-07-01 12:00"), .delivered, .openEvent 0,
    .openAlert 1530000000, .didSelectRowAt 1 1530000000]

theorem check_mark_five_minutes :
    ∃ phone, exec (step .taipei) {} fiveMinutes = some phone ∧ phone.isOn partyID.key 1 ∧
      phone.isPending (alertID partyID.key 1) := by
  have hrun : (exec (step .taipei) {} fiveMinutes).any (fun phone =>
      decide (alertID partyID.key 1 ∈ phone.pending.map (·.identifier))) = true := by decide
  obtain ⟨phone, hphone, hpending⟩ := (Option.any_eq_true _ _).mp hrun
  have hidentifier := of_decide_eq_true hpending
  have htruth := check_marks_truthful ⟨fiveMinutes, hphone⟩ partyID (show 1 < 7 by decide)
  exact ⟨phone, hphone, htruth.1.mpr hidentifier, hidentifier⟩

end GetTogether.Phone
