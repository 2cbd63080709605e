import GetTogether.EventScreen

/-! When the event screen never unwraps nil: the map and the edit screen need the
geocoder to have succeeded, the refusal needs a screen opened from a notification. -/
namespace GetTogether.EventScreen

open Realtime

def note (geocoded : Bool) (_ : EventScreen) : Action → Bool
  | .geocoded result => geocoded || result.location.isSome
  | _ => geocoded

def Prepared (opening : Opening) (geocoded : Bool) : Action → Prop
  | .viewDidLoad => opening.selected = true
  | .edit => geocoded = true
  | .goToMapPressed => geocoded = true
  | .reject => opening.fromNotification = true
  | _ => True

structure Loads (opening : Opening) (geocoded : Bool) (screen : EventScreen) : Prop where
  location : screen.location.isSome = geocoded
  annotation : screen.annotation.isSome = geocoded
  region : screen.region.isSome = geocoded
  event : screen.event.isSome = opening.selected
  notification : screen.notification.isSome =
    (opening.selected && opening.fromNotification)
  loaded : screen.isLoaded = true → opening.selected = true

section Step

variable {opening : Opening} {geocoded : Bool} {screen screen' : EventScreen}

theorem loads_opened (opening : Opening) (currentUser : Option String) :
    Loads opening false (opened currentUser opening) := by
  cases opening with
  | mainVC selected => constructor <;> simp [opened, Opening.selected, Opening.fromNotification]
  | notificationVC selected =>
    constructor <;> simp [opened, Opening.selected, Opening.fromNotification]

theorem Loads.setLocationAnnotation (hloads : Loads opening geocoded screen)
    (result : Geocoding) :
    Loads opening (geocoded || result.location.isSome) (screen.setLocationAnnotation result) := by
  unfold EventScreen.setLocationAnnotation
  cases result.location with
  | none =>
    rw [Option.isSome_none, Bool.or_false]
    exact ⟨hloads.location, hloads.annotation, hloads.region, hloads.event,
      hloads.notification, hloads.loaded⟩
  | some location =>
    rw [Option.isSome_some, Bool.or_true]
    exact ⟨rfl, rfl, rfl, hloads.event, hloads.notification, hloads.loaded⟩

theorem Loads.same (hloads : Loads opening geocoded screen)
    (hlocation : screen'.location = screen.location)
    (hpin : screen'.annotation = screen.annotation)
    (hregion : screen'.region = screen.region)
    (hevent : screen'.event.isSome = screen.event.isSome)
    (hnotification : screen'.notification = screen.notification)
    (hloaded : screen'.isLoaded = screen.isLoaded) : Loads opening geocoded screen' := by
  constructor
  · rw [hlocation, hloads.location]
  · rw [hpin, hloads.annotation]
  · rw [hregion, hloads.region]
  · rw [hevent, hloads.event]
  · rw [hnotification, hloads.notification]
  · rw [hloaded]
    exact hloads.loaded

/-- How a step ends: well, and then it was prepared, or in a trap, and then it was not. -/
structure Ends (opening : Opening) (geocoded : Bool) (screen : EventScreen) (action : Action)
    (screen' : EventScreen) : Prop where
  safe : screen'.trapped = false ↔ Prepared opening geocoded action
  loads : Prepared opening geocoded action →
    Loads opening (note geocoded screen action) screen'

theorem Ends.well {action : Action} (hprepared : Prepared opening geocoded action)
    (hsafe : screen'.trapped = false)
    (hloads : Loads opening (note geocoded screen action) screen') :
    Ends opening geocoded screen action screen' :=
  ⟨⟨fun _ => hprepared, fun _ => hsafe⟩, fun _ => hloads⟩

theorem Ends.trap {action : Action} (hprepared : ¬ Prepared opening geocoded action) :
    Ends opening geocoded screen action screen.trap := by
  constructor
  · constructor
    · intro hsafe
      simp [EventScreen.trap] at hsafe
    · exact fun h => absurd h hprepared
  · exact fun h => absurd h hprepared

theorem loaded_of_step {action : Action} (h : screen.step action = some screen')
    (haction : action ≠ .viewDidLoad) :
    screen.isLoaded = true ∧ screen.perform action = some screen' := by
  unfold step at h
  rw [Option.ite_none_right_eq_some] at h
  refine ⟨?_, h.2⟩
  have henabled := h.1
  simp only [enabled, haction, decide_false, Bool.bne_false, Bool.and_eq_true] at henabled
  exact henabled.2

theorem Loads.ends_viewDidLoad (hloads : Loads opening geocoded screen)
    (hsafe : screen.trapped = false) (h : screen.step .viewDidLoad = some screen') :
    Ends opening geocoded screen .viewDidLoad screen' := by
  unfold step at h
  rw [Option.ite_none_right_eq_some] at h
  have hload := h.2
  unfold perform at hload
  by_cases hselected : opening.selected = true
  · obtain ⟨event, hevent⟩ := Option.isSome_iff_exists.mp (hloads.event.trans hselected)
    rw [unwrap_found hevent] at hload
    rw [← Option.some.inj hload]
    exact Ends.well hselected hsafe { hloads with loaded := fun _ => hselected }
  · have hnone : screen.event = none := by
      rw [← Option.not_isSome_iff_eq_none, hloads.event]
      exact hselected
    rw [unwrap_nil hnone] at hload
    rw [← Option.some.inj hload]
    exact Ends.trap hselected

theorem Loads.ends_located (hloads : Loads opening geocoded screen)
    (hsafe : screen.trapped = false) {action : Action}
    (hprepared : Prepared opening geocoded action ↔ geocoded = true)
    (hnote : note geocoded screen action = geocoded) {α : Type} {value : Option α}
    (hvalue : value.isSome = geocoded) {body : α → Option EventScreen}
    (hbody : ∀ found, value = some found → body found = some screen' → screen' = screen)
    (h : screen.unwrap value body = some screen') :
    Ends opening geocoded screen action screen' := by
  cases hfound : value with
  | none =>
    have hmissing : ¬ geocoded = true := by
      rw [← hvalue, hfound]
      simp
    rw [unwrap_nil hfound] at h
    rw [← Option.some.inj h]
    exact Ends.trap fun hp => hmissing (hprepared.mp hp)
  | some found =>
    have hthere : geocoded = true := by
      rw [← hvalue, hfound]
      rfl
    rw [unwrap_found hfound] at h
    rw [hbody found hfound h]
    refine Ends.well (hprepared.mpr hthere) hsafe ?_
    rw [hnote]
    exact hloads

theorem Loads.ends_edit (hloads : Loads opening geocoded screen) (hsafe : screen.trapped = false)
    {event : Event} (hevent : screen.event = some event)
    (h : screen.perform .edit = some screen') : Ends opening geocoded screen .edit screen' := by
  simp only [perform, Option.bind_eq_bind, Option.bind_eq_some_iff, unwrap_found hevent,
    Option.ite_none_right_eq_some] at h
  obtain ⟨uid, -, -, hedit⟩ := h
  unfold editEvent at hedit
  rw [unwrap_found hevent] at hedit
  refine hloads.ends_located hsafe Iff.rfl rfl hloads.annotation ?_ hedit
  intro annotation hpin hregion
  have hthere : geocoded = true := by
    rw [← hloads.annotation, hpin]
    rfl
  obtain ⟨region, hfound⟩ := Option.isSome_iff_exists.mp (hloads.region.trans hthere)
  rw [unwrap_found hfound] at hregion
  exact (Option.some.inj hregion).symm

theorem Loads.ends_reject (hloads : Loads opening geocoded screen)
    (hsafe : screen.trapped = false) (hselected : opening.selected = true) {event : Event}
    (hevent : screen.event = some event) (h : screen.perform .reject = some screen') :
    Ends opening geocoded screen .reject screen' := by
  simp only [perform, Option.bind_eq_bind, Option.bind_eq_some_iff, unwrap_found hevent] at h
  obtain ⟨uid, -, selector, -, hreject⟩ := h
  have hfrom := hloads.notification
  rw [hselected, Bool.true_and] at hfrom
  cases hnotification : screen.notification with
  | none =>
    rw [unwrap_nil hnotification] at hreject
    rw [← Option.some.inj hreject]
    apply Ends.trap
    unfold Prepared
    rw [← hfrom, hnotification]
    exact Bool.false_ne_true
  | some notification =>
    rw [unwrap_found hnotification] at hreject
    rw [← Option.some.inj hreject]
    rw [hnotification] at hfrom
    exact Ends.well hfrom.symm hsafe (hloads.same rfl rfl rfl rfl rfl rfl)

theorem Loads.ends (hloads : Loads opening geocoded screen) (hsafe : screen.trapped = false)
    {action : Action} (h : screen.step action = some screen') :
    Ends opening geocoded screen action screen' := by
  by_cases haction : action = .viewDidLoad
  · rw [haction] at h ⊢
    exact hloads.ends_viewDidLoad hsafe h
  · obtain ⟨hloaded, hperform⟩ := loaded_of_step h haction
    have hselected := hloads.loaded hloaded
    obtain ⟨event, hevent⟩ := Option.isSome_iff_exists.mp (hloads.event.trans hselected)
    cases action with
    | viewDidLoad => exact absurd rfl haction
    | geocoded result =>
      simp only [perform, Option.ite_none_right_eq_some, Option.some.injEq] at hperform
      rw [← hperform.2]
      refine Ends.well trivial ?_ (hloads.setLocationAnnotation result)
      unfold EventScreen.setLocationAnnotation
      split <;> exact hsafe
    | queryUserData users =>
      simp only [perform, unwrap_found hevent] at hperform
      split at hperform <;> rw [← Option.some.inj hperform]
      · exact Ends.well trivial hsafe (hloads.same rfl rfl rfl rfl rfl rfl)
      · exact Ends.well trivial hsafe hloads
    | queryEventList eventList user time notificationID =>
      cases user with
      | none =>
        rw [← Option.some.inj hperform]
        exact Ends.well trivial hsafe hloads
      | some user =>
        simp only [perform, unwrap_found hevent] at hperform
        split at hperform <;> rw [← Option.some.inj hperform]
        · exact Ends.well trivial hsafe (hloads.same rfl rfl rfl rfl rfl rfl)
        · exact Ends.well trivial hsafe hloads
    | edit => exact hloads.ends_edit hsafe hevent hperform
    | goToMapPressed =>
      unfold perform at hperform
      refine hloads.ends_located hsafe Iff.rfl rfl hloads.location ?_ hperform
      intro location _ hopen
      rw [unwrap_found hevent] at hopen
      exact (Option.some.inj hopen).symm
    | comment =>
      simp only [perform, unwrap_found hevent] at hperform
      rw [← Option.some.inj hperform]
      exact Ends.well trivial hsafe hloads
    | dropOut =>
      simp only [perform, Option.bind_eq_bind, Option.bind_eq_some_iff, unwrap_found hevent,
        Option.ite_none_right_eq_some, Option.some.injEq] at hperform
      obtain ⟨uid, -, -, heq⟩ := hperform
      rw [← heq]
      exact Ends.well trivial hsafe hloads
    | agree =>
      simp only [perform, Option.bind_eq_bind, Option.bind_eq_some_iff, unwrap_found hevent,
        Option.some.injEq] at hperform
      obtain ⟨uid, -, selector, -, heq⟩ := hperform
      rw [← heq]
      refine Ends.well trivial hsafe (hloads.same rfl rfl rfl ?_ rfl rfl)
      rw [hevent]
      rfl
    | reject => exact hloads.ends_reject hsafe hselected hevent hperform

end Step

/-- A run of the screen unwraps no nil exactly when every step is prepared: the screen is loaded
for a selected row, edit and map wait for the geocoder, and only a screen opened from a
notification refuses. -/
theorem never_unwraps_nil_iff (opening : Opening) (currentUser : Option String)
    (actions : List Action) :
    Always (logged step note) (fun s => s.2.trapped = false)
        (false, opened currentUser opening) actions ↔
      EachStep (logged step note) (fun s action => Prepared opening s.1 action)
        (false, opened currentUser opening) actions := by
  apply always_iff_eachStep fun s => Loads opening s.1 s.2
  · intro s action s' hloads hsafe hstep
    exact (hloads.ends hsafe (logged_eq_some.mp hstep).1).safe
  · intro s action s' hloads hsafe hprepared hstep
    obtain ⟨screen, hscreen, rfl⟩ := logged_cases hstep
    exact (hloads.ends hsafe hscreen).loads hprepared
  · exact loads_opened opening currentUser
  · cases opening <;> rfl

def party : Event :=
  ⟨"k", "alice", "Party", ["", "bob"], "2018-07-01 12:00", "Taipei", "fun", "party.jpg"⟩

/-- The organiser edits the event before the geocoder has called back. -/
theorem edit_before_geocoding :
    ¬ ∀ opening currentUser actions, Always step (fun screen => screen.trapped = false)
      (opened currentUser opening) actions := by
  intro h
  have hrun := h (.mainVC (some party)) (some "alice") [.viewDidLoad, .edit]
  have hsafe : true = false := (hrun.2 _ rfl).2 _ rfl
  simp at hsafe

end GetTogether.EventScreen
