import GetTogether.Device.Rules
import GetTogether.Realtime.Run

/-! Rows of the notification screen and the events they open. The rows are sorted at
once; the events are appended as their fetches come back, whoever asked for them and
whether or not an earlier row still waits for its own. -/
namespace GetTogether.Device

open Realtime

/-- A row that is selected opens the event and the notification it shows, and marks that
notification as read. -/
def OpensShown (s : Device) : Action → Prop
  | .selectRow row => ∃ shown event, s.notification.shown row = some shown ∧
      s.notification.prepare row = some (event, shown) ∧ event.eventID = shown.eventID ∧
      s.notification.didSelectRowAt row = some
        [.updateChildValues ["notification", shown.notificationID] [("isRead", .bool true)]]
  | _ => True

/-- What happened since the last snapshot: how many rows from the top got their event
while all those above had theirs, and whether the table was reloaded. -/
structure Turns where
  answered : Nat
  reloaded : Bool

def fetchedEvent (s : Device) (fetch : Nat) : Option Event :=
  (s.notification.fetches[fetch]?).bind fun eventID =>
    (NotificationVC.fetchEvent s.db eventID).join

def InTurn (s : Device) (event : Event) : Prop :=
  (s.notification.notificationData[s.notification.joinedEventData.length]?).map (·.eventID) =
    some event.eventID

instance (s : Device) (event : Event) : Decidable (s.InTurn event) :=
  inferInstanceAs (Decidable (_ = _))

def Turns.note (log : Turns) (s : Device) : Action → Turns
  | .notificationDelivered _ _ => ⟨0, false⟩
  | .logout => if s.notification.isLoaded then ⟨0, true⟩ else log
  | .eventFetched fetch =>
    match s.fetchedEvent fetch with
    | some event =>
      if log.answered = s.notification.joinedEventData.length ∧ s.InTurn event then
        { log with answered := log.answered + 1 }
      else log
    | none => log
  | .reloadData => { log with reloaded := true }
  | _ => log

/-- A row is selected only when the table was reloaded and all records up to that of the
row have come back in the order of the rows, since the last snapshot. -/
def Attentive (s : Turns × Device) : Action → Prop
  | .selectRow row => s.1.reloaded = true ∧ row < s.1.answered
  | _ => True

instance (s : Turns × Device) (a : Action) : Decidable (Attentive s a) := by
  cases a with
  | selectRow row => exact inferInstanceAs (Decidable (s.1.reloaded = true ∧ row < s.1.answered))
  | _ => exact isTrue trivial

structure Aligned (s : Turns × Device) : Prop where
  answered : s.1.answered ≤ s.2.notification.joinedEventData.length
  events : ∀ row < s.1.answered, ∃ event notification,
    s.2.notification.joinedEventData[row]? = some event ∧
    s.2.notification.notificationData[row]? = some notification ∧
    event.eventID = notification.eventID
  cells : s.1.reloaded = true → ∀ row notification, s.2.notification.shown row = some notification →
    s.2.notification.notificationData[row]? = some notification

theorem Aligned.empty : Aligned (⟨0, false⟩, Device.empty) where
  answered := Nat.zero_le _
  events row hrow := absurd hrow (Nat.not_lt_zero row)
  cells h := by cases h

variable {s s' : Turns × Device}

theorem Aligned.of_same (h : Aligned s) (hlog : s'.1 = s.1)
    (hdata : s'.2.notification.notificationData = s.2.notification.notificationData)
    (hevents : s'.2.notification.joinedEventData = s.2.notification.joinedEventData)
    (hcells : ∀ row notification, s'.2.notification.shown row = some notification →
      s.2.notification.shown row = some notification ∨
        s.2.notification.notificationData[row]? = some notification) : Aligned s' where
  answered := by
    rw [hlog, hevents]
    exact h.answered
  events := by
    rw [hlog, hevents, hdata]
    exact h.events
  cells := by
    rw [hlog, hdata]
    intro hreloaded row notification hshown
    rcases hcells row notification hshown with hold | hnew
    · exact h.cells hreloaded row notification hold
    · exact hnew

theorem Aligned.of_untouched (h : Aligned s) (hlog : s'.1 = s.1)
    (hsame : s'.2.notification = s.2.notification) : Aligned s' := by
  refine h.of_same hlog (by rw [hsame]) (by rw [hsame]) fun row notification hshown => .inl ?_
  rwa [hsame] at hshown

/-- A record that comes back for the first row without an event answers that row. -/
theorem Aligned.fetched (h : Aligned s) (event : Event) {vc : NotificationVC}
    (hdata : vc.notificationData = s.2.notification.notificationData)
    (hevents : vc.joinedEventData = s.2.notification.joinedEventData ++ [event])
    (hcells : ∀ row notification, vc.shown row = some notification →
      s.2.notification.shown row = some notification) :
    Aligned (if s.1.answered = s.2.notification.joinedEventData.length ∧ s.2.InTurn event then
        { s.1 with answered := s.1.answered + 1 } else s.1, { s.2 with notification := vc }) := by
  have hkept : ∀ row < s.1.answered, ∃ found notification,
      vc.joinedEventData[row]? = some found ∧
      vc.notificationData[row]? = some notification ∧ found.eventID = notification.eventID := by
    intro row hrow
    obtain ⟨found, notification, hfound, hnotification, heq⟩ := h.events row hrow
    have hlt : row < s.2.notification.joinedEventData.length :=
      Nat.lt_of_lt_of_le hrow h.answered
    exact ⟨found, notification, by rw [hevents, List.getElem?_append_left hlt, hfound],
      by rw [hdata, hnotification], heq⟩
  have hanswered := h.answered
  split
  · next hturn =>
    obtain ⟨hall, hnext⟩ := hturn
    refine ⟨by dsimp only; rw [hevents, List.length_append, List.length_singleton]; omega, ?_, ?_⟩
    · intro row hrow
      by_cases hold : row < s.1.answered
      · exact hkept row hold
      · have hlast : row = s.2.notification.joinedEventData.length := by
          dsimp only at hrow
          omega
        subst hlast
        obtain ⟨notification, hnotification, heq⟩ := Option.map_eq_some_iff.mp hnext
        exact ⟨event, notification, by simp [hevents], by dsimp only; rw [hdata, hnotification],
          heq.symm⟩
    · intro hreloaded row notification hshown
      dsimp only
      rw [hdata]
      exact h.cells hreloaded row notification (hcells row notification hshown)
  · refine ⟨by dsimp only; rw [hevents, List.length_append]; omega, hkept, ?_⟩
    intro hreloaded row notification hshown
    dsimp only
    rw [hdata]
    exact h.cells hreloaded row notification (hcells row notification hshown)

theorem Aligned.step (h : Aligned s) {a : Action} {device : Device} (hstep : Step s.2 a device) :
    Aligned (s.1.note s.2 a, device) := by
  have hframe := hstep.frame
  have hquery := s.2.notification.queryIfSignedIn_same s.2.currentUser
  cases hstep with
  | login =>
    refine h.of_same rfl ?_ ?_ ?_ <;> unfold login <;> dsimp only <;> split
    · exact hquery.1
    · rfl
    · exact hquery.2.1
    · rfl
    · exact fun row notification hshown => .inl (hquery.2.2 row notification hshown)
    · exact fun row notification hshown => .inl hshown
  | refreshNotification _ =>
    exact h.of_same rfl hquery.1 hquery.2.1 fun row notification hshown =>
      .inl (hquery.2.2 row notification hshown)
  | notificationDidLoad _ =>
    have hloaded := NotificationVC.queryIfSignedIn_same
      { s.2.notification with isLoaded := true } s.2.currentUser
    exact h.of_same rfl hloaded.1 hloaded.2.1 fun row notification hshown =>
      .inl (hloaded.2.2 row notification hshown)
  | logout _ =>
    cases hloaded : s.2.notification.isLoaded with
    | false =>
      apply h.of_untouched
      · simp [Turns.note, hloaded]
      · simp [logout, hloaded]
    | true =>
      simp only [Turns.note, hloaded, if_true]
      refine ⟨Nat.zero_le _, by simp, fun _ row notification hshown => ?_⟩
      simp only [logout, hloaded, if_true, NotificationVC.didUserLogout,
        NotificationVC.shown_reloadData] at hshown
      cases hshown
  | notificationDelivered _ _ => exact ⟨Nat.zero_le _, by simp [Turns.note], by simp [Turns.note]⟩
  | @eventFetched fetch eventID found hfetch hfound =>
    have hrecord : s.2.fetchedEvent fetch = found := by
      simp [fetchedEvent, hfetch, hfound]
    simp only [Turns.note, hrecord]
    cases found with
    | none => exact h.of_same rfl rfl rfl fun row notification hshown => .inl hshown
    | some event => exact h.fetched event rfl rfl fun row notification hshown => hshown
  | reloadData _ =>
    refine ⟨h.answered, h.events, fun _ row notification hshown => ?_⟩
    simp only [NotificationVC.shown_reloadData] at hshown
    cases hshown
  | cellForRow hcell =>
    obtain ⟨hdata, hevents, hcells⟩ := NotificationVC.cellForRowAt_eq_some hcell
    exact h.of_same rfl hdata hevents hcells
  | _ => exact h.of_untouched rfl (hframe.notification rfl)

theorem Aligned.opensShown (h : Aligned s) {a : Action} (hattentive : Attentive s a)
    {device : Device} (hstep : Step s.2 a device) : OpensShown s.2 a := by
  cases hstep with
  | @selectRow row hmade =>
    obtain ⟨shown, hshown⟩ := Option.isSome_iff_exists.mp hmade
    obtain ⟨hreloaded, hrow⟩ := hattentive
    have hdata := h.cells hreloaded row shown hshown
    obtain ⟨event, notification, hevent, hnotification, heq⟩ := h.events row hrow
    obtain rfl := Option.some.inj (hdata.symm.trans hnotification)
    refine ⟨shown, event, hshown, ?_, heq, ?_⟩
    · simp [NotificationVC.prepare, hevent, hdata]
    · simp [NotificationVC.didSelectRowAt, hdata]
  | _ => trivial

/-- In a run whose taps are all attentive, every tap stays in bounds, opens the event and
the notification shown in the row and marks that notification as read. -/
theorem rows_open_shown (actions : List Action)
    (h : EachStep (logged step Turns.note) Attentive (⟨0, false⟩, empty) actions) :
    EachStep step OpensShown empty actions := by
  rw [← eachStep_logged Turns.note (⟨0, false⟩, empty) actions]
  apply EachStep.of_invariant ?_ ?_ Aligned.empty h
  · intro s a s' halign _ hstep
    obtain ⟨device, hrun, rfl⟩ := logged_cases hstep
    exact halign.step (.of_step hrun)
  · intro s a s' halign hattentive hstep
    exact halign.opensShown hattentive (.of_step (logged_eq_some.mp hstep).1)

/-- Two notifications of Bob, the newer one about event b. -/
def notified : List Action :=
  [.write (.setValue ["event", "a"] (Event.uploadedEventData
      ⟨"a", "alice", "A", [""], "2018-12-24 18:00", "Taipei", "Dinner", "a.jpg"⟩)),
    .write (.setValue ["event", "b"] (Event.uploadedEventData
      ⟨"b", "alice", "B", [""], "2018-12-25 18:00", "Taipei", "Dinner", "b.jpg"⟩)),
    .write (.setValue ["notification", "m"] (GNotification.uploadNotification
      ⟨"m", "bob", "a", "A?", "", false, "2018-12-01 12:00:00", false⟩)),
    .write (.setValue ["notification", "n"] (GNotification.uploadNotification
      ⟨"n", "bob", "b", "B?", "", false, "2018-12-02 12:00:00", false⟩)),
    .signIn "bob", .notificationDidLoad, .notificationDelivered 0 .stable]

theorem rows_open_shown_in_turn : ∃ s, exec step empty (notified ++
      [.eventFetched 0, .eventFetched 0, .reloadData, .cellForRow 1, .selectRow 1]) = some s ∧
    EachStep step OpensShown empty (notified ++
      [.eventFetched 0, .eventFetched 0, .reloadData, .cellForRow 1, .selectRow 1]) ∧
    s.db.bool? ["notification", "m", "isRead"] = some true := by
  have hrun : ((exec step empty (notified ++
      [.eventFetched 0, .eventFetched 0, .reloadData, .cellForRow 1, .selectRow 1])).any fun s =>
        s.db.bool? ["notification", "m", "isRead"] = some true) = true := by decide
  obtain ⟨s, hs, hread⟩ := (Option.any_eq_true _ _).mp hrun
  exact ⟨s, hs, rows_open_shown _ (by decide), of_decide_eq_true hread⟩

/-- The record of the second row comes back first: the first row shows the newer
notification and opens the event of the older one. Until then the second row is out of
bounds. -/
theorem row_opens_other_event : (∃ s shown event,
    exec step empty (notified ++
      [.eventFetched 1, .eventFetched 0, .reloadData, .cellForRow 0]) = some s ∧
    s.notification.shown 0 = some shown ∧ s.notification.prepare 0 = some (event, shown) ∧
    event.eventID ≠ shown.eventID ∧ ¬s.OpensShown (.selectRow 0)) ∧
    (∃ s, exec step empty (notified ++ [.eventFetched 1, .reloadData, .cellForRow 1]) = some s ∧
      (s.notification.shown 1).isSome = true ∧ s.notification.prepare 1 = none ∧
      ¬s.OpensShown (.selectRow 1)) := by
  have hswapped : ((exec step empty (notified ++
      [.eventFetched 1, .eventFetched 0, .reloadData, .cellForRow 0])).any fun s =>
        (s.notification.shown 0).any fun shown => (s.notification.prepare 0).any fun opened =>
          opened.2 = shown ∧ opened.1.eventID ≠ shown.eventID) = true := by decide
  have hbounds : ((exec step empty (notified ++
      [.eventFetched 1, .reloadData, .cellForRow 1])).any fun s =>
        (s.notification.shown 1).isSome = true ∧ s.notification.prepare 1 = none) = true := by
    decide
  constructor
  · obtain ⟨s, hs, h⟩ := (Option.any_eq_true _ _).mp hswapped
    obtain ⟨shown, hshown, h⟩ := (Option.any_eq_true _ _).mp h
    obtain ⟨⟨event, notification⟩, hopened, h⟩ := (Option.any_eq_true _ _).mp h
    obtain ⟨rfl, hne⟩ := of_decide_eq_true h
    refine ⟨s, notification, event, hs, hshown, hopened, hne, ?_⟩
    rintro ⟨shown, other, -, hother, heq, -⟩
    rw [hopened, Option.some.injEq, Prod.mk.injEq] at hother
    exact hne (by rw [hother.1, hother.2, heq])
  · obtain ⟨s, hs, h⟩ := (Option.any_eq_true _ _).mp hbounds
    obtain ⟨hshown, hnone⟩ := of_decide_eq_true h
    refine ⟨s, hs, hshown, hnone, ?_⟩
    rintro ⟨shown, other, -, hother, -⟩
    exact absurd (hnone.symm.trans hother) nofun

end GetTogether.Device
