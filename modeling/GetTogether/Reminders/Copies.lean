import GetTogether.Reminders.Marks

/-! Which date a pending request was made from. Nothing sets a request again when the
date of its event is edited; it keeps the date of the copy that the reminder screen
held when the option was last switched on. -/
namespace GetTogether.Phone

open Realtime EventAlertVC

/-- The request is for the date of the event less the offset of the option. -/
def SetFor (timeZone : TimeZone) (request : Request) (event : Event) (option : Nat) : Prop :=
  (eventDate timeZone event).map (fun date => components timeZone (date - offset option)) =
    some request.components

/-- Every pending request of an event the device has received is for its date. -/
def RemindersFollow (timeZone : TimeZone) (phone : Phone) : Prop :=
  ∀ event ∈ phone.received, ∀ option < 7, ∀ request ∈ phone.pending,
    request.identifier = alertID event.eventID option → SetFor timeZone request event option

instance (timeZone : TimeZone) (phone : Phone) : Decidable (RemindersFollow timeZone phone) :=
  inferInstanceAs (Decidable (∀ event ∈ phone.received, ∀ option < 7, ∀ request ∈ phone.pending,
    request.identifier = alertID event.eventID option →
      (eventDate timeZone event).map (fun date => components timeZone (date - offset option)) =
        some request.components))

/-- The copies from which the options were last switched on. -/
abbrev Log := String → Nat → Option Event

def note (log : Log) (phone : Phone) : Action → Log
  | .didSelectRowAt row _ =>
    match phone.alertVC with
    | some vc =>
      if vc.alertStatus[row]? = some false then
        Function.update log vc.event.eventID
          (Function.update (log vc.event.eventID) row (some vc.event))
      else log
    | none => log
  | _ => log

structure FromCopies (timeZone : TimeZone) (log : Log) (phone : Phone) : Prop where
  keyed : Keyed phone
  copies : ∀ (eventID : PushID) (option : Nat), option < 7 → ∀ request ∈ phone.pending,
    request.identifier = alertID eventID.key option →
      ∃ copy, log eventID.key option = some copy ∧ copy.eventID = eventID.key ∧
        SetFor timeZone request copy option

section Step

variable {timeZone : TimeZone} {log : Log} {phone : Phone} {vc : EventAlertVC} {row : Nat}
  {date : ℚ}

theorem FromCopies.switchedOff (hcopies : FromCopies timeZone log phone)
    (hkeyed : Keyed (phone.toggled timeZone vc row true date)) :
    FromCopies timeZone log (phone.toggled timeZone vc row true date) := by
  refine ⟨hkeyed, fun eventID option hoption request hrequest hidentifier => ?_⟩
  have hold : request ∈ phone.pending := (mem_removePending.mp hrequest).1
  exact hcopies.copies eventID option hoption request hold hidentifier

theorem FromCopies.switchedOn (hcopies : FromCopies timeZone log phone)
    (hkeyed : Keyed (phone.toggled timeZone vc row false date)) (hvc : phone.alertVC = some vc)
    (hrow : row < 7) (hdate : eventDate timeZone vc.event = some date) :
    FromCopies timeZone (Function.update log vc.event.eventID
        (Function.update (log vc.event.eventID) row (some vc.event)))
      (phone.toggled timeZone vc row false date) := by
  refine ⟨hkeyed, fun eventID option hoption request hrequest hidentifier => ?_⟩
  have hpushed : eventID.key.length = vc.event.eventID.length :=
    eventID.pushed.trans (hcopies.keyed.alert vc hvc).symm
  rcases mem_add.mp hrequest with hnew | hold
  · rw [hnew] at hidentifier
    have hsame := (alertID_inj hpushed hoption hrow).mp hidentifier.symm
    refine ⟨vc.event, ?_, hsame.1.symm, ?_⟩
    · rw [hsame.1, hsame.2, Function.update_self, Function.update_self]
    · unfold SetFor
      rw [hnew, hsame.2, hdate, Option.map_some]
      rfl
  · have hother : ¬ (eventID.key = vc.event.eventID ∧ option = row) := by
      intro hsame
      apply hold.2
      rw [hidentifier, hsame.1, hsame.2]
      rfl
    obtain ⟨copy, hlog, hcopy⟩ := hcopies.copies eventID option hoption request hold.1 hidentifier
    refine ⟨copy, ?_, hcopy⟩
    by_cases hevent : eventID.key = vc.event.eventID
    · have hoption : option ≠ row := fun h => hother ⟨hevent, h⟩
      rw [hevent, Function.update_self, Function.update_of_ne hoption, ← hevent]
      exact hlog
    · rw [Function.update_of_ne hevent]
      exact hlog

theorem FromCopies.step {phone' : Phone} {action : Action}
    (hcopies : FromCopies timeZone log phone) (h : Step timeZone phone action phone') :
    FromCopies timeZone (note log phone action) phone' := by
  have hkeyed := hcopies.keyed.step h
  cases h with
  | uploadEventData | delivered | openEvent | openAlert | closeAlert | closeEvent =>
    exact ⟨hkeyed, hcopies.copies⟩
  | @didSelectRowAt row now vc isAlertOn date hvc hrow hstatus hdate =>
    unfold note
    simp only [hvc, hstatus, Option.some.injEq]
    cases isAlertOn with
    | true => exact hcopies.switchedOff hkeyed
    | false => exact hcopies.switchedOn hkeyed hvc hrow hdate

end Step

/-- In every state a pending request is for the date of the copy from which its option was last
switched on, and so for the current date as long as that is the date of the copy. -/
theorem reminders_follow_copies {timeZone : TimeZone} {log : Log} {phone : Phone}
    (h : Reachable (logged (step timeZone) note) (fun _ _ => none, {}) (log, phone))
    (eventID : PushID) {option : Nat} (hoption : option < 7) {request : Request}
    (hrequest : request ∈ phone.pending)
    (hidentifier : request.identifier = alertID eventID.key option) :
    ∃ copy, log eventID.key option = some copy ∧ copy.eventID = eventID.key ∧
      SetFor timeZone request copy option ∧
        ∀ event ∈ phone.received, event.eventID = eventID.key → event.date = copy.date →
          SetFor timeZone request event option := by
  have hcopies : FromCopies timeZone log phone := by
    refine h.invariant (fun s => FromCopies timeZone s.1 s.2) ⟨?_, ?_⟩ ?_
    · constructor <;> simp
    · simp
    · intro s action s' hs hstep
      obtain ⟨next, hnext, rfl⟩ := logged_cases hstep
      exact hs.step (.of_step hnext)
  obtain ⟨copy, hlog, hevent, hset⟩ :=
    hcopies.copies eventID option hoption request hrequest hidentifier
  refine ⟨copy, hlog, hevent, hset, fun event _ _ hdate => ?_⟩
  unfold SetFor eventDate at hset ⊢
  rw [hdate]
  exact hset

theorem reminders_follow_five_minutes :
    ∃ log phone, exec (logged (step .taipei) note) (fun _ _ => none, {}) fiveMinutes =
        some (log, phone) ∧
      ∃ request ∈ phone.pending, ∃ copy, log partyID.key 1 = some copy ∧
        SetFor .taipei request copy 1 := by
  have hrun : (exec (logged (step .taipei) note) (fun _ _ => none, {}) fiveMinutes).any
      (fun s => decide (alertID partyID.key 1 ∈ s.2.pending.map (·.identifier))) = true := by
    decide
  obtain ⟨s, hs, hpending⟩ := (Option.any_eq_true _ _).mp hrun
  obtain ⟨request, hrequest, hidentifier⟩ := List.mem_map.mp (of_decide_eq_true hpending)
  obtain ⟨copy, hlog, -, hset, -⟩ := @reminders_follow_copies .taipei s.1 s.2
    ⟨fiveMinutes, hs⟩ partyID 1 (by decide) request hrequest hidentifier
  exact ⟨s.1, s.2, hs, request, hrequest, copy, hlog, hset⟩

/-- The party is put off by a day after its reminder was switched on. -/
theorem reminder_left_behind :
    ¬ ∀ phone, Reachable (step .taipei) {} phone → phone.received = phone.stored →
      RemindersFollow .taipei phone := by
  intro h
  have hrun : (exec (step .taipei) {} (fiveMinutes ++
      [.uploadEventData partyID (party "2018-07-02 12:00"), .delivered])).any (fun phone =>
        decide (phone.received = phone.stored ∧ ¬ RemindersFollow .taipei phone)) = true := by
    decide +kernel
  obtain ⟨phone, hphone, hboth⟩ := (Option.any_eq_true _ _).mp hrun
  have hstale := of_decide_eq_true hboth
  exact hstale.2 (h phone ⟨_, hphone⟩ hstale.1)

end GetTogether.Phone
