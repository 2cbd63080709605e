import GetTogether.EventForm
import GetTogether.EventScreen
import GetTogether.LocationSearchVC

/-! The place of an event. A row of the search drops a pin on the map screen, confirm hands
its coordinate to the form, and the form has it geocoded. Several geocodings may be under
way, and they come back in any order. -/
namespace GetTogether

open Realtime

structure MKPlacemark where
  coordinate : CLLocation
  name : Option String
  locality : Option String
  administrativeArea : Option String
  deriving DecidableEq

structure MKMapItem where
  placemark : MKPlacemark
  deriving DecidableEq

/-- A pin of the map screen; those of the form have no subtitle. -/
structure PlaceAnnotation extends MKPointAnnotation where
  subtitle : Option String
  deriving DecidableEq

structure LocationVC where
  confirmIsEnabled : Bool := false
  selectedPin : Option MKPlacemark := none
  annotations : List PlaceAnnotation := []
  region : Option MKCoordinateRegion := none
  resultSearchController : Option (LocationSearchVC MKMapItem) := none
  deriving DecidableEq

namespace LocationVC

/-- The screen as the storyboard and `viewDidLoad` leave it. -/
def loaded (locationServicesEnabled : Bool) : LocationVC where
  resultSearchController := if locationServicesEnabled then some (.loaded true) else none

def viewDidAppear (vc : LocationVC) : Option CLLocation → LocationVC
  | none => vc
  | some coordinate => { vc with region := some ⟨coordinate, 1 / 100, 1 / 100⟩ }

def annotated (placemark : MKPlacemark) : PlaceAnnotation where
  coordinate := placemark.coordinate
  title := placemark.name
  subtitle := match placemark.locality, placemark.administrativeArea with
    | some city, some state => some (city ++ "," ++ state)
    | _, _ => none

def dropPinZoomIn (vc : LocationVC) (placemark : MKPlacemark) : LocationVC := { vc with
  confirmIsEnabled := true
  selectedPin := some placemark
  annotations := [annotated placemark]
  region := some ⟨placemark.coordinate, 5 / 100, 5 / 100⟩ }

/-- What the delegate is handed; without a pin the access traps. -/
def confirmPressed (vc : LocationVC) : Option CLLocation := vc.selectedPin.map (·.coordinate)

/-- The row of the list that a tap hands over. -/
def didSelectRowAt (vc : LocationVC) (row : Nat) : Option LocationVC := do
  let locationSearchTable ← vc.resultSearchController
  let selectedItem ← locationSearchTable.didSelectRowAt row
  return vc.dropPinZoomIn selectedItem.placemark

def search (vc : LocationVC) (a : LocationSearchVC.Action MKMapItem) : Option LocationVC := do
  let locationSearchTable ← vc.resultSearchController
  let locationSearchTable ← locationSearchTable.step a
  return { vc with resultSearchController := some locationSearchTable }

end LocationVC

/-- The form with its map, and the map screen while that is shown over it. -/
structure PlaceForm where
  form : EventForm
  annotations : List MKPointAnnotation := []
  region : Option MKCoordinateRegion := none
  requests : List CLLocation := []
  locationVC : Option LocationVC := none
  trapped : Bool := false

namespace PlaceForm

structure Opening where
  content : EventContentVC
  pin : MKPointAnnotation
  region : MKCoordinateRegion

inductive Action where
  | form (a : EventForm.Action)
  | location (locationServicesEnabled : Bool)
  | viewDidAppear (location : Option CLLocation)
  | search (a : LocationSearchVC.Action MKMapItem)
  | didSelectRowAt (row : Nat)
  | confirmPressed
  | back
  | geocoded (request : Nat) (placemark : Option Placemark)

def opened (currentUser now : String) (opening : Option Opening) : PlaceForm where
  form := .opened currentUser now (opening.map (·.content))
  annotations := (opening.map (·.pin)).toList
  region := opening.map (·.region)

def isTap : EventForm.Action → Bool
  | .queryOrganiserData _ | .getCoordinate | .geocoded _ | .uploaded _ _ _ _ _ => false
  | _ => true

def isCallback : EventForm.Action → Bool
  | .queryOrganiserData _ | .uploaded _ _ _ _ _ => true
  | _ => false

def popped (s : PlaceForm) : PlaceForm := { s with locationVC := none }

def getCoordinate (s : PlaceForm) (coordinate : CLLocation) : Option PlaceForm :=
  (s.form.step .getCoordinate).map fun form =>
    { s with form, requests := s.requests ++ [coordinate] }

/-- The address goes to the label and to a new pin. -/
def geocoded (s : PlaceForm) (coordinate : CLLocation) : Option Placemark → PlaceForm
  | none => s
  | some placemark => { s with
      annotations := s.annotations ++ [⟨coordinate, some placemark.address⟩]
      region := some ⟨coordinate, 5 / 100, 5 / 100⟩ }

def onMap (s : PlaceForm) (body : LocationVC → Option LocationVC) : Option PlaceForm :=
  (s.locationVC.bind body).map fun vc => { s with locationVC := some vc }

def stepRunning (s : PlaceForm) : Action → Option PlaceForm
  | .form a =>
    if isCallback a ∨ (isTap a ∧ s.locationVC = none) then
      (s.form.step a).map fun form => { s with form }
    else none
  | .location locationServicesEnabled =>
    if s.locationVC = none ∧ s.form.vc.phase = .editing then some { s with
      annotations := []
      locationVC := some (.loaded locationServicesEnabled) }
    else none
  | .viewDidAppear location => s.onMap fun vc => some (vc.viewDidAppear location)
  | .search a => s.onMap (·.search a)
  | .didSelectRowAt row => s.onMap (·.didSelectRowAt row)
  | .confirmPressed => do
    let vc ← s.locationVC
    if vc.confirmIsEnabled then
      match vc.confirmPressed with
      | none => some { s with trapped := true }
      | some coordinate => s.popped.getCoordinate coordinate
    else none
  | .back => s.locationVC.map fun _ => s.popped
  | .geocoded request placemark => do
    let coordinate ← s.requests[request]?
    let form ← s.form.step (.geocoded placemark)
    return ({ s with form, requests := s.requests.eraseIdx request } : PlaceForm).geocoded
      coordinate placemark

def step (s : PlaceForm) (a : Action) : Option PlaceForm :=
  if s.trapped then none else s.stepRunning a

inductive Step (s : PlaceForm) : Action → PlaceForm → Prop
  | form {a form} (ha : isCallback a ∨ (isTap a ∧ s.locationVC = none))
      (hform : s.form.step a = some form) : Step s (.form a) { s with form }
  | location {enabled} (hnone : s.locationVC = none) (hphase : s.form.vc.phase = .editing) :
      Step s (.location enabled) { s with annotations := [], locationVC := some (.loaded enabled) }
  | viewDidAppear {location vc} (hvc : s.locationVC = some vc) :
      Step s (.viewDidAppear location) { s with locationVC := some (vc.viewDidAppear location) }
  | search {a vc before after} (hvc : s.locationVC = some vc)
      (hbefore : vc.resultSearchController = some before) (hafter : before.step a = some after) :
      Step s (.search a)
        { s with locationVC := some { vc with resultSearchController := some after } }
  | select {row vc before selectedItem} (hvc : s.locationVC = some vc)
      (hbefore : vc.resultSearchController = some before)
      (hitem : before.didSelectRowAt row = some selectedItem) :
      Step s (.didSelectRowAt row)
        { s with locationVC := some (vc.dropPinZoomIn selectedItem.placemark) }
  | trap {vc} (hvc : s.locationVC = some vc) (henabled : vc.confirmIsEnabled = true)
      (hpin : vc.selectedPin = none) : Step s .confirmPressed { s with trapped := true }
  | confirm {vc pin form} (hvc : s.locationVC = some vc) (hpin : vc.selectedPin = some pin)
      (hform : s.form.step .getCoordinate = some form) :
      Step s .confirmPressed { s with form, locationVC := none
                                      requests := s.requests ++ [pin.coordinate] }
  | back : Step s .back { s with locationVC := none }
  | geocoded {request coordinate placemark form} (hrequest : s.requests[request]? = some coordinate)
      (hform : s.form.step (.geocoded placemark) = some form) :
      Step s (.geocoded request placemark)
        (({ s with form, requests := s.requests.eraseIdx request } : PlaceForm).geocoded
          coordinate placemark)

variable {s s' : PlaceForm} {a : Action}

theorem Step.of_step (h : s.step a = some s') : s.trapped = false ∧ Step s a s' := by
  unfold step at h
  split at h
  · cases h
  · next hrunning =>
    refine ⟨by simpa using hrunning, ?_⟩
    cases a with
    | form a =>
      simp only [stepRunning, Option.ite_none_right_eq_some, Option.map_eq_some_iff] at h
      obtain ⟨ha, form, hform, rfl⟩ := h
      exact .form ha hform
    | location enabled =>
      simp only [stepRunning, Option.ite_none_right_eq_some, Option.some.injEq] at h
      obtain ⟨⟨hnone, hphase⟩, rfl⟩ := h
      exact .location hnone hphase
    | viewDidAppear location =>
      simp only [stepRunning, onMap, Option.map_eq_some_iff, Option.bind_eq_some_iff] at h
      obtain ⟨vc', ⟨vc, hvc, hvc'⟩, rfl⟩ := h
      rw [← Option.some.inj hvc']
      exact .viewDidAppear hvc
    | search a =>
      simp only [stepRunning, onMap, Option.map_eq_some_iff, Option.bind_eq_some_iff,
        LocationVC.search, Option.bind_eq_bind, Option.pure_def, Option.some.injEq] at h
      obtain ⟨vc', ⟨vc, hvc, before, hbefore, after, hafter, rfl⟩, rfl⟩ := h
      exact .search hvc hbefore hafter
    | didSelectRowAt row =>
      simp only [stepRunning, onMap, Option.map_eq_some_iff, Option.bind_eq_some_iff,
        LocationVC.didSelectRowAt, Option.bind_eq_bind, Option.pure_def, Option.some.injEq] at h
      obtain ⟨vc', ⟨vc, hvc, before, hbefore, item, hitem, rfl⟩, rfl⟩ := h
      exact .select hvc hbefore hitem
    | confirmPressed =>
      simp only [stepRunning, Option.bind_eq_bind, Option.bind_eq_some_iff,
        Option.ite_none_right_eq_some] at h
      obtain ⟨vc, hvc, henabled, h⟩ := h
      cases hpin : vc.selectedPin with
      | none =>
        simp only [LocationVC.confirmPressed, hpin, Option.map_none, Option.some.injEq] at h
        exact h ▸ .trap hvc henabled hpin
      | some pin =>
        simp only [LocationVC.confirmPressed, hpin, Option.map_some, getCoordinate,
          Option.map_eq_some_iff] at h
        obtain ⟨form, hform, rfl⟩ := h
        exact .confirm hvc hpin hform
    | back =>
      obtain ⟨vc, -, rfl⟩ := Option.map_eq_some_iff.mp h
      exact .back
    | geocoded request placemark =>
      simp only [stepRunning, Option.bind_eq_bind, Option.bind_eq_some_iff, Option.pure_def,
        Option.some.injEq] at h
      obtain ⟨coordinate, hrequest, form, hform, rfl⟩ := h
      exact .geocoded hrequest hform

/-- What has happened so far, the latest first. -/
structure Journal where
  responses : List MKMapItem := []
  confirmed : List MKPlacemark := []
  answers : List (CLLocation × Option Placemark) := []

def note (journal : Journal) (s : PlaceForm) : Action → Journal
  | .search (.answered _ (some mapItems)) =>
    { journal with responses := mapItems ++ journal.responses }
  | .confirmPressed =>
    { journal with confirmed := (s.locationVC.bind (·.selectedPin)).toList ++ journal.confirmed }
  | .geocoded request placemark =>
    { journal with answers := ((s.requests[request]?).map (·, placemark)).toList ++ journal.answers }
  | _ => journal

/-- The geocoding that found a place last, with that place. -/
def Journal.latest (journal : Journal) : Option (CLLocation × Placemark) :=
  journal.answers.findSome? fun answer => answer.2.map (answer.1, ·)

def Journal.Listed (journal : Journal) (place : MKPlacemark) : Prop :=
  ∃ item ∈ journal.responses, item.placemark = place

def Journal.Confirmed (journal : Journal) (coordinate : CLLocation) : Prop :=
  ∃ place ∈ journal.confirmed, place.coordinate = coordinate

end PlaceForm

namespace EventForm

variable {form form' : EventForm} {a : Action}

def placed (form : EventForm) : Action → Option Placemark
  | .geocoded placemark => placemark <|> form.placemark
  | _ => form.placemark

def stillGeocoding (form : EventForm) : Action → Nat
  | .getCoordinate => form.geocodings + 1
  | .geocoded _ => form.geocodings - 1
  | _ => form.geocodings

theorem event_of_stepEditing (h : form.stepEditing a = some form') :
    form'.vc.event = form.vc.event ∧ form'.placemark = form.placed a ∧
      form'.geocodings = form.stillGeocoding a := by
  cases a with
  | select selection =>
    obtain ⟨vc, hvc, rfl⟩ := Option.map_eq_some_iff.mp h
    rcases AddEventVC.select_cases hvc with rfl | ⟨user, -, -, rfl⟩ | ⟨item, removed, -, rfl⟩
    · exact ⟨rfl, rfl, rfl⟩
    · exact ⟨rfl, rfl, rfl⟩
    · exact ⟨rfl, rfl, rfl⟩
  | done autoID =>
    obtain rfl := Option.some.inj h
    refine ⟨?_, rfl, rfl⟩
    unfold AddEventVC.done
    split <;> rfl
  | typeTitle _ | typeDescription _ | textViewDidBeginEditing | dateChanged _ _ | getCoordinate =>
    obtain rfl := Option.some.inj h
    exact ⟨rfl, rfl, rfl⟩
  | _ => cases h

theorem event_of_step (h : form.step a = some form') :
    form'.vc.event = form.vc.event ∧ form'.placemark = form.placed a ∧
      form'.geocodings = form.stillGeocoding a := by
  cases a with
  | queryOrganiserData db =>
    obtain ⟨vc, hvc, rfl⟩ := Option.map_eq_some_iff.mp h
    obtain ⟨user, rfl⟩ := AddEventVC.queryOrganiserData_eq_some hvc
    exact ⟨rfl, rfl, rfl⟩
  | geocoded placemark =>
    simp only [EventForm.step, Option.ite_none_right_eq_some, Option.some.injEq] at h
    rw [← h.2]
    cases placemark with
    | none => exact ⟨rfl, rfl, rfl⟩
    | some placemark => exact ⟨rfl, rfl, rfl⟩
  | uploaded runtime uid newID time url =>
    simp only [EventForm.step] at h
    split at h
    · rw [Option.ite_none_right_eq_some, Option.some.injEq] at h
      rw [← h.2]
      exact ⟨rfl, rfl, rfl⟩
    · cases h
  | _ =>
    simp only [EventForm.step, Option.ite_none_right_eq_some] at h
    exact event_of_stepEditing h.2

end EventForm

namespace LocationVC

variable {vc : LocationVC} {listed : MKPlacemark → Prop}

/-- The one pin on the map is the one that confirm hands over, and it was a row of the list. -/
structure Shows (vc : LocationVC) (listed : MKPlacemark → Prop) : Prop where
  enabled : vc.confirmIsEnabled = vc.selectedPin.isSome
  annotations : vc.annotations = (vc.selectedPin.map annotated).toList
  pin : ∀ pin, vc.selectedPin = some pin → listed pin
  items : ∀ table, vc.resultSearchController = some table →
    ∀ item ∈ table.matchingItems, listed item.placemark

theorem shows_loaded (locationServicesEnabled : Bool) :
    (loaded locationServicesEnabled).Shows listed := by
  constructor
  · rfl
  · rfl
  · intro pin h
    cases h
  · intro table h item hitem
    cases locationServicesEnabled with
    | false => cases h
    | true =>
      rw [← Option.some.inj h] at hitem
      exact absurd hitem List.not_mem_nil

theorem Shows.mono (h : vc.Shows listed) {other : MKPlacemark → Prop}
    (hmono : ∀ place, listed place → other place) : vc.Shows other where
  enabled := h.enabled
  annotations := h.annotations
  pin pin hpin := hmono pin (h.pin pin hpin)
  items table htable item hitem := hmono _ (h.items table htable item hitem)

theorem Shows.viewDidAppear (h : vc.Shows listed) (location : Option CLLocation) :
    (vc.viewDidAppear location).Shows listed := by
  cases location with
  | none => exact h
  | some coordinate => exact ⟨h.enabled, h.annotations, h.pin, h.items⟩

theorem Shows.dropPinZoomIn (h : vc.Shows listed) {placemark : MKPlacemark}
    (hplacemark : listed placemark) : (vc.dropPinZoomIn placemark).Shows listed := by
  refine ⟨rfl, rfl, ?_, h.items⟩
  intro pin hpin
  exact Option.some.inj hpin ▸ hplacemark

end LocationVC

theorem LocationSearchVC.mem_matchingItems_of_step {MapItem : Type}
    {vc vc' : LocationSearchVC MapItem} {a : Action MapItem} (h : vc.step a = some vc')
    {item : MapItem} (hitem : item ∈ vc'.matchingItems) : item ∈ vc.matchingItems ∨
      ∃ search mapItems, a = .answered search (some mapItems) ∧ item ∈ mapItems := by
  cases a with
  | updateSearchResults searchBarText =>
    rw [← Option.some.inj h] at hitem
    unfold updateSearchResults at hitem
    split at hitem <;> exact .inl hitem
  | answered index response =>
    obtain ⟨search, -, rfl⟩ := Option.map_eq_some_iff.mp h
    cases response with
    | none => exact .inl hitem
    | some mapItems => exact .inr ⟨index, mapItems, rfl, hitem⟩

namespace PlaceForm

variable {start : PlaceForm} {journal : Journal} {s s' : PlaceForm} {a : Action}

theorem Journal.Listed.note {place : MKPlacemark} (h : journal.Listed place) (s : PlaceForm)
    (a : Action) : (PlaceForm.note journal s a).Listed place := by
  obtain ⟨item, hitem, hplace⟩ := h
  refine ⟨item, ?_, hplace⟩
  unfold PlaceForm.note
  split
  · exact List.mem_append_right _ hitem
  · exact hitem
  · exact hitem
  · exact hitem

theorem Journal.Confirmed.note {coordinate : CLLocation} (h : journal.Confirmed coordinate)
    (s : PlaceForm) (a : Action) : (PlaceForm.note journal s a).Confirmed coordinate := by
  obtain ⟨place, hplace, hcoordinate⟩ := h
  refine ⟨place, ?_, hcoordinate⟩
  unfold PlaceForm.note
  split
  · exact hplace
  · exact List.mem_append_right _ hplace
  · exact hplace
  · exact hplace

theorem mem_confirmed_note {place : MKPlacemark} (h : place ∈ (note journal s a).confirmed) :
    place ∈ journal.confirmed ∨ ∃ vc, s.locationVC = some vc ∧ vc.selectedPin = some place := by
  unfold note at h
  split at h
  · exact .inl h
  · rcases List.mem_append.mp h with h | h
    · exact .inr (Option.bind_eq_some_iff.mp (Option.mem_toList.mp h))
    · exact .inl h
  · exact .inl h
  · exact .inl h

theorem mem_answers_note {answer : CLLocation × Option Placemark}
    (h : answer ∈ (note journal s a).answers) :
    answer ∈ journal.answers ∨ answer.1 ∈ s.requests := by
  unfold note at h
  split at h
  · exact .inl h
  · exact .inl h
  · rcases List.mem_append.mp h with h | h
    · obtain ⟨coordinate, hcoordinate, rfl⟩ := Option.map_eq_some_iff.mp (Option.mem_toList.mp h)
      exact .inr (List.mem_of_getElem? hcoordinate)
    · exact .inl h
  · exact .inl h

theorem latest_note (ha : ∀ request placemark, a ≠ .geocoded request placemark) :
    (note journal s a).latest = journal.latest := by
  unfold note
  split
  · rfl
  · rfl
  · exact absurd rfl (ha _ _)
  · rfl

theorem latest_geocoded {request : Nat} {coordinate : CLLocation}
    (h : s.requests[request]? = some coordinate) (placemark : Option Placemark) :
    (note journal s (.geocoded request placemark)).latest =
      (placemark.map (coordinate, ·) <|> journal.latest) := by
  simp only [Journal.latest, note, h, Option.map_some, Option.toList_some, List.singleton_append,
    List.findSome?_cons]
  cases placemark <;> rfl

/-- The map of the form has no pin, or that of the place which came back last. -/
def MapShows (s : PlaceForm) (found : CLLocation × Placemark) : Prop :=
  (s.annotations = [] ∨
    s.annotations.getLast? = some ⟨found.1, some found.2.address⟩) ∧
  s.region = some ⟨found.1, 5 / 100, 5 / 100⟩

/-- The map of the form is as it was at the start, but for pins that were taken away. -/
def MapKept (s start : PlaceForm) : Prop :=
  (s.annotations = [] ∨ s.annotations = start.annotations) ∧ s.region = start.region

structure Placed (start : PlaceForm) (journal : Journal) (s : PlaceForm) : Prop where
  trapped : s.trapped = false
  form : Reachable EventForm.step start.form s.form
  editing : s.locationVC ≠ none → s.form.vc.phase = .editing
  shows : ∀ vc, s.locationVC = some vc → vc.Shows journal.Listed
  confirmed : ∀ place ∈ journal.confirmed, journal.Listed place
  asked : ∀ coordinate ∈ s.requests, journal.Confirmed coordinate
  answered : ∀ answer ∈ journal.answers, journal.Confirmed answer.1
  placemark : s.form.placemark = journal.latest.map (·.2)
  map : ∀ found, journal.latest = some found → s.MapShows found
  unplaced : journal.latest = none → s.MapKept start

theorem placed_opened (currentUser now : String) (opening : Option Opening) :
    Placed (opened currentUser now opening) {} (opened currentUser now opening) := by
  constructor
  · rfl
  · exact .refl _
  · intro h
    exact absurd rfl h
  · intro vc h
    cases h
  · exact List.forall_mem_nil _
  · exact List.forall_mem_nil _
  · exact List.forall_mem_nil _
  · cases opening <;> rfl
  · intro found h
    cases h
  · intro _
    exact ⟨.inr rfl, rfl⟩

theorem phase_of_callback {form form' : EventForm} {a : EventForm.Action} (ha : isCallback a = true)
    (h : form.step a = some form') (hphase : form.vc.phase = .editing) :
    form'.vc.phase = .editing := by
  cases a with
  | queryOrganiserData db =>
    obtain ⟨vc, hvc, rfl⟩ := Option.map_eq_some_iff.mp h
    obtain ⟨user, rfl⟩ := AddEventVC.queryOrganiserData_eq_some hvc
    exact hphase
  | uploaded runtime uid newID time url => simp [EventForm.step, hphase] at h
  | _ => cases ha

theorem phase_of_geocoded {form form' : EventForm} {placemark : Option Placemark}
    (h : form.step (.geocoded placemark) = some form') : form'.vc.phase = form.vc.phase := by
  simp only [EventForm.step, Option.ite_none_right_eq_some, Option.some.injEq] at h
  rw [← h.2]
  cases placemark <;> rfl

theorem placemark_of_form {form form' : EventForm} {a : EventForm.Action}
    (ha : isCallback a = true ∨ isTap a = true) (h : form.step a = some form') :
    form'.placemark = form.placemark := by
  rw [(EventForm.event_of_step h).2.1]
  cases a with
  | geocoded placemark => simp [isCallback, isTap] at ha
  | _ => rfl

theorem Placed.of_note (h : Placed start journal s) (a : Action) :
    (∀ place ∈ (note journal s a).confirmed, (note journal s a).Listed place) ∧
    ∀ answer ∈ (note journal s a).answers, (note journal s a).Confirmed answer.1 := by
  constructor
  · intro place hplace
    rcases mem_confirmed_note hplace with hplace | ⟨vc, hvc, hpin⟩
    · exact (h.confirmed place hplace).note s a
    · exact ((h.shows vc hvc).pin place hpin).note s a
  · intro answer hanswer
    rcases mem_answers_note hanswer with hanswer | hasked
    · exact (h.answered answer hanswer).note s a
    · exact (h.asked answer.1 hasked).note s a

/-- A step that concerns the screens only, with the journal of the places kept. -/
theorem Placed.of_screen (h : Placed start journal s)
    (ha : ∀ request placemark, a ≠ .geocoded request placemark) {form : EventForm}
    (hform : Reachable EventForm.step start.form form) (hplacemark : form.placemark = s.form.placemark)
    {annotations : List MKPointAnnotation}
    (hannotations : annotations = [] ∨ annotations = s.annotations) {locationVC : Option LocationVC}
    (hediting : locationVC ≠ none → form.vc.phase = .editing)
    (hshows : ∀ vc, locationVC = some vc → vc.Shows (note journal s a).Listed) :
    Placed start (note journal s a) { s with form, annotations, locationVC } := by
  refine ⟨h.trapped, hform, hediting, hshows, (h.of_note a).1, ?_, (h.of_note a).2, ?_, ?_, ?_⟩
  · intro coordinate hcoordinate
    exact (h.asked coordinate hcoordinate).note s a
  · rw [latest_note ha]
    exact hplacemark.trans h.placemark
  · intro found hfound
    rw [latest_note ha] at hfound
    obtain ⟨hmap, hregion⟩ := h.map found hfound
    refine ⟨?_, hregion⟩
    rcases hannotations with hannotations | hannotations
    · exact .inl hannotations
    · rw [hannotations]
      exact hmap
  · intro hnone
    rw [latest_note ha] at hnone
    obtain ⟨hmap, hregion⟩ := h.unplaced hnone
    refine ⟨?_, hregion⟩
    rcases hannotations with hannotations | hannotations
    · exact .inl hannotations
    · rw [hannotations]
      exact hmap

theorem Placed.on_map (h : Placed start journal s) {vc vc' : LocationVC}
    (ha : ∀ request placemark, a ≠ .geocoded request placemark) (hvc : s.locationVC = some vc)
    (hshows : vc'.Shows (note journal s a).Listed) :
    Placed start (note journal s a) { s with locationVC := some vc' } := by
  apply h.of_screen ha h.form rfl (.inr rfl)
  · intro _
    exact h.editing (by simp [hvc])
  · intro vc'' hvc''
    exact Option.some.inj hvc'' ▸ hshows

theorem Placed.geocoded (h : Placed start journal s) {request : Nat} {coordinate : CLLocation}
    {placemark : Option Placemark} {form : EventForm}
    (hrequest : s.requests[request]? = some coordinate)
    (hform : s.form.step (.geocoded placemark) = some form) :
    Placed start (note journal s (.geocoded request placemark))
      (({ s with form, requests := s.requests.eraseIdx request } : PlaceForm).geocoded
        coordinate placemark) := by
  have hreach := h.form.tail hform
  have hlatest : (note journal s (.geocoded request placemark)).latest =
      (placemark.map (coordinate, ·) <|> journal.latest) := latest_geocoded hrequest placemark
  have hplacemark := (EventForm.event_of_step hform).2.1
  have hasked : ∀ coordinate ∈ s.requests.eraseIdx request,
      (note journal s (.geocoded request placemark)).Confirmed coordinate :=
    fun coordinate hcoordinate => (h.asked coordinate (List.mem_of_mem_eraseIdx hcoordinate)).note s _
  have hediting : s.locationVC ≠ none → form.vc.phase = .editing :=
    fun hne => (phase_of_geocoded hform).trans (h.editing hne)
  have hshows : ∀ vc, s.locationVC = some vc →
      vc.Shows (note journal s (.geocoded request placemark)).Listed :=
    fun vc hvc => (h.shows vc hvc).mono fun place hplace => hplace.note s _
  obtain ⟨hconfirmed, hanswered⟩ := h.of_note (.geocoded request placemark)
  cases placemark with
  | none =>
    refine ⟨h.trapped, hreach, hediting, hshows, hconfirmed, hasked, hanswered, ?_, ?_, ?_⟩
    · rw [hlatest]
      exact hplacemark.trans h.placemark
    · intro found hfound
      rw [hlatest] at hfound
      exact h.map found hfound
    · intro hnone
      rw [hlatest] at hnone
      exact h.unplaced hnone
  | some placemark =>
    refine ⟨h.trapped, hreach, hediting, hshows, hconfirmed, hasked, hanswered, ?_, ?_, ?_⟩
    · rw [hlatest]
      exact hplacemark
    · intro found hfound
      rw [hlatest] at hfound
      rw [← Option.some.inj hfound]
      exact ⟨.inr List.getLast?_concat, rfl⟩
    · intro hnone
      rw [hlatest] at hnone
      cases hnone

theorem Placed.step (h : Placed start journal s) (hstep : Step s a s') :
    Placed start (note journal s a) s' := by
  have hlisted : ∀ place, journal.Listed place → (note journal s a).Listed place :=
    fun place hplace => hplace.note s a
  cases hstep with
  | form ha hform =>
    apply h.of_screen (by simp) (h.form.tail hform)
      (placemark_of_form (ha.imp_right And.left) hform) (.inr rfl)
    · intro hne
      exact phase_of_callback (ha.resolve_right fun htap => hne htap.2) hform (h.editing hne)
    · exact h.shows
  | location hnone hphase =>
    apply h.of_screen (by simp) h.form rfl (.inl rfl)
    · exact fun _ => hphase
    · intro vc hvc
      exact Option.some.inj hvc ▸ LocationVC.shows_loaded _
  | viewDidAppear hvc => exact h.on_map (by simp) hvc ((h.shows _ hvc).viewDidAppear _)
  | @search a vc before after hvc hbefore hafter =>
    have hbefore := ((h.shows _ hvc).mono hlisted).items before hbefore
    obtain ⟨henabled, hannotations, hpin, -⟩ := (h.shows _ hvc).mono hlisted
    refine h.on_map (by simp) hvc ⟨henabled, hannotations, hpin, ?_⟩
    intro table htable item hitem
    rw [← Option.some.inj htable] at hitem
    rcases LocationSearchVC.mem_matchingItems_of_step hafter hitem with
      hitem | ⟨search, mapItems, rfl, hitem⟩
    · exact hbefore item hitem
    · exact ⟨item, List.mem_append_left _ hitem, rfl⟩
  | select hvc hbefore hitem =>
    have hplace := (h.shows _ hvc).items _ hbefore _ (List.mem_of_getElem? hitem)
    exact h.on_map (by simp) hvc ((h.shows _ hvc).dropPinZoomIn hplace)
  | trap hvc henabled hpin =>
    rw [(h.shows _ hvc).enabled, hpin] at henabled
    cases henabled
  | @confirm vc pin form hvc hpin hform =>
    have hscreen : Placed start (note journal s .confirmPressed)
        { s with form, locationVC := none } :=
      h.of_screen (by simp) (h.form.tail hform) (EventForm.event_of_step hform).2.1 (.inr rfl)
        (by simp) (by simp)
    obtain ⟨htrapped, hreach, hediting, hshows, hconfirmed, hasked, hanswered, hplacemark, hmap,
      hkept⟩ := hscreen
    refine ⟨htrapped, hreach, hediting, hshows, hconfirmed, ?_, hanswered, hplacemark, hmap, hkept⟩
    intro coordinate hcoordinate
    rcases List.mem_append.mp hcoordinate with hcoordinate | hcoordinate
    · exact hasked coordinate hcoordinate
    · refine ⟨pin, ?_, (List.mem_singleton.mp hcoordinate).symm⟩
      simp [note, hvc, hpin]
  | back => exact h.of_screen (by simp) h.form rfl (.inr rfl) (by simp) (by simp)
  | geocoded hrequest hform => exact h.geocoded hrequest hform

theorem placed_reachable {currentUser now : String} {opening : Option Opening} {s : Journal × PlaceForm}
    (h : Reachable (logged step note) ({}, opened currentUser now opening) s) :
    Placed (opened currentUser now opening) s.1 s.2 := by
  refine h.invariant (fun s => Placed _ s.1 s.2) (placed_opened currentUser now opening) ?_
  intro s a s' hs hstep
  obtain ⟨final, hfinal, rfl⟩ := logged_cases hstep
  exact hs.step (Step.of_step hfinal).2

theorem location_of_placed {currentUser now : String} {opening : Option Opening}
    (h : Placed (opened currentUser now opening) journal s) : s.form.vc.form.location =
      journal.latest.elim (opened currentUser now opening).form.vc.form.location (·.2.address) := by
  have hstart : (opened currentUser now opening).form.Filled := EventForm.filled_opened _ _ _
  have hnone : (opened currentUser now opening).form.placemark = none := by
    cases opening <;> rfl
  have hfilled : s.form.Filled :=
    h.form.invariant EventForm.Filled hstart fun _ _ _ hs hstep => hs.step hstep
  have hevent : s.form.vc.event = (opened currentUser now opening).form.vc.event :=
    h.form.invariant (fun form => form.vc.event = _) rfl
      fun _ _ _ hs hstep => (EventForm.event_of_step hstep).1.trans hs
  rw [hfilled.location, hstart.location, EventForm.label, EventForm.label, h.placemark, hevent,
    hnone]
  cases journal.latest <;> rfl

theorem Placed.confirm (h : Placed start journal s) {vc : LocationVC} (hvc : s.locationVC = some vc)
    (henabled : vc.confirmIsEnabled = true) : ∃ pin s', journal.Listed pin ∧
      vc.annotations = [LocationVC.annotated pin] ∧ s.step .confirmPressed = some s' ∧
      s'.requests = s.requests ++ [pin.coordinate] := by
  obtain ⟨hsome, hannotations, hlisted, -⟩ := h.shows vc hvc
  rw [henabled] at hsome
  obtain ⟨pin, hpin⟩ := Option.isSome_iff_exists.mp hsome.symm
  have hphase := h.editing (by simp [hvc])
  refine ⟨pin, { s.popped with
    form := { s.form with geocodings := s.form.geocodings + 1 }
    requests := s.requests ++ [pin.coordinate] }, hlisted pin hpin, ?_, ?_, rfl⟩
  · rw [hannotations, hpin]
    rfl
  · simp [PlaceForm.step, h.trapped, stepRunning, hvc, henabled, LocationVC.confirmPressed, hpin,
      getCoordinate, popped, EventForm.step, EventForm.stepEditing, hphase]

/-- In every run the place on the form, which is stored with the event, is the address found
for a place of the search that was confirmed, or what the form was opened with; the map goes
with it. -/
theorem place_was_chosen (currentUser now : String) (opening : Option Opening) (journal : Journal)
    (s : PlaceForm)
    (h : Reachable (logged step note) ({}, opened currentUser now opening) (journal, s)) :
    s.form.vc.form.location =
      journal.latest.elim (opened currentUser now opening).form.vc.form.location (·.2.address) ∧
    (∀ found, journal.latest = some found → s.MapShows found ∧
      ∃ item ∈ journal.responses, item.placemark ∈ journal.confirmed ∧
        item.placemark.coordinate = found.1) ∧
    (journal.latest = none → s.MapKept (opened currentUser now opening)) ∧
    ∀ vc, s.locationVC = some vc → vc.confirmIsEnabled = true → ∃ pin s', journal.Listed pin ∧
      vc.annotations = [LocationVC.annotated pin] ∧ s.step .confirmPressed = some s' ∧
      s'.requests = s.requests ++ [pin.coordinate] := by
  have hplaced := placed_reachable h
  refine ⟨?_, ?_, hplaced.unplaced, ?_⟩
  · exact location_of_placed hplaced
  · intro found hfound
    refine ⟨hplaced.map found hfound, ?_⟩
    obtain ⟨answer, hanswer, hsome⟩ := List.exists_of_findSome?_eq_some hfound
    obtain ⟨placemark, -, rfl⟩ := Option.map_eq_some_iff.mp hsome
    obtain ⟨place, hplace, hcoordinate⟩ := hplaced.answered answer hanswer
    obtain ⟨item, hitem, rfl⟩ := hplaced.confirmed place hplace
    exact ⟨item, hitem, hplace, hcoordinate⟩
  · intro vc hvc henabled
    exact hplaced.confirm hvc henabled

def taipei101 : MKMapItem := ⟨⟨⟨25, 121⟩, some "Taipei 101", some "Xinyi", some "Taipei"⟩⟩

/-- A place is looked for, tapped, confirmed and found. -/
def chosen : List Action :=
  [.location true, .search (.updateSearchResults (some "Taipei")),
    .search (.answered 0 (some [taipei101])), .didSelectRowAt 0, .confirmPressed,
    .geocoded 0 (some ⟨some "Taipei", some "Xinyi", some "Taipei 101"⟩)]

theorem place_was_chosen_taipei : ∃ journal s,
    exec (logged step note) ({}, opened "alice" "2018-12-01 12:00" none) chosen =
      some (journal, s) ∧ s.form.vc.form.location = "TaipeiXinyiTaipei 101" := by
  have hrun : ((exec (logged step note) ({}, opened "alice" "2018-12-01 12:00" none) chosen).any
      fun s => s.1.latest.any fun found => found.2.address = "TaipeiXinyiTaipei 101") = true := by
    decide
  obtain ⟨s, hs, hlatest⟩ := (Option.any_eq_true _ _).mp hrun
  obtain ⟨found, hfound, haddress⟩ := (Option.any_eq_true _ _).mp hlatest
  obtain ⟨hlocation, -⟩ := place_was_chosen "alice" "2018-12-01 12:00" none s.1 s.2 ⟨chosen, hs⟩
  rw [hfound] at hlocation
  exact ⟨s.1, s.2, hs, hlocation.trans (of_decide_eq_true haddress)⟩

/-- No place is confirmed while an earlier one is being geocoded. -/
def InTurn (s : PlaceForm) : Action → Prop
  | .confirmPressed => s.requests = []
  | _ => True

instance (s : PlaceForm) (a : Action) : Decidable (s.InTurn a) := by
  cases a <;> unfold InTurn <;> infer_instance

/-- Every place that was confirmed is being geocoded or has come back, in this order. -/
def Answered (journal : Journal) (s : PlaceForm) : Prop :=
  s.requests.length ≤ 1 ∧
    s.requests ++ journal.answers.map (·.1) = journal.confirmed.map (·.coordinate)

theorem Answered.step (h : Answered journal s) (hturn : s.InTurn a) (hstep : Step s a s') :
    Answered (note journal s a) s' := by
  obtain ⟨hlength, hall⟩ := h
  cases hstep with
  | @search a vc before after hvc hbefore hafter =>
    cases a with
    | updateSearchResults searchBarText => exact ⟨hlength, hall⟩
    | answered search response => cases response <;> exact ⟨hlength, hall⟩
  | @trap vc hvc henabled hpin =>
    refine ⟨hlength, ?_⟩
    simpa [note, hvc, hpin] using hall
  | @confirm vc pin form hvc hpin hform =>
    have hnone : s.requests = [] := hturn
    rw [hnone, List.nil_append] at hall
    rw [hnone, List.nil_append]
    refine ⟨Nat.le_refl 1, ?_⟩
    simp [note, hvc, hpin, hall]
  | @geocoded request coordinate placemark form hrequest hform =>
    have hrequests : s.requests = [coordinate] ∧ request = 0 := by
      cases hlist : s.requests with
      | nil => simp [hlist] at hrequest
      | cons first rest =>
        rw [hlist, List.length_cons] at hlength
        obtain rfl := List.eq_nil_of_length_eq_zero (by omega : rest.length = 0)
        cases request with
        | zero => simpa [hlist] using hrequest
        | succ request => simp [hlist] at hrequest
    obtain ⟨hrequests, rfl⟩ := hrequests
    rw [hrequests] at hall
    cases placemark <;>
      exact ⟨by simp [PlaceForm.geocoded, hrequests],
        by simpa [PlaceForm.geocoded, note, hrequests] using hall⟩
  | _ => exact ⟨hlength, hall⟩

/-- Where places are confirmed in turn, the place on the form is the one confirmed last, as
soon as that one has been found. -/
theorem last_place_shown (currentUser now : String) (opening : Option Opening) (run : List Action)
    (hturn : EachStep (logged step note) (fun s a => s.2.InTurn a)
      ({}, opened currentUser now opening) run) (journal : Journal) (s : PlaceForm)
    (hrun : exec (logged step note) ({}, opened currentUser now opening) run = some (journal, s))
    (hback : s.requests = []) (answer : CLLocation × Option Placemark)
    (hanswer : journal.answers.head? = some answer) :
    ∃ place, journal.confirmed.head? = some place ∧ place.coordinate = answer.1 ∧
      ∀ placemark, answer.2 = some placemark →
        s.form.vc.form.location = placemark.address ∧ s.MapShows (answer.1, placemark) := by
  have hkeep : ∀ (s : Journal × PlaceForm) a s', Answered s.1 s.2 → s.2.InTurn a →
      logged step note s a = some s' → Answered s'.1 s'.2 := by
    intro s a s' hs hcond hstep
    obtain ⟨final, hfinal, rfl⟩ := logged_cases hstep
    exact hs.step hcond (Step.of_step hfinal).2
  have hstart : Answered {} (opened currentUser now opening) := ⟨Nat.zero_le 1, rfl⟩
  obtain ⟨-, hall⟩ := hturn.invariant hkeep hstart hrun
  have hplaced := placed_reachable ⟨run, hrun⟩
  obtain ⟨rest, hanswers⟩ := List.head?_eq_some_iff.mp hanswer
  rw [hback, List.nil_append, hanswers, List.map_cons] at hall
  obtain ⟨place, others, hconfirmed, hcoordinate, -⟩ := List.map_eq_cons_iff.mp hall.symm
  refine ⟨place, congrArg List.head? hconfirmed, hcoordinate, ?_⟩
  intro placemark hfound
  have hlatest : journal.latest = some (answer.1, placemark) := by
    simp [Journal.latest, hanswers, hfound]
  rw [location_of_placed hplaced, hlatest]
  exact ⟨rfl, hplaced.map _ hlatest⟩

theorem last_place_shown_taipei : ∃ journal s place,
    exec (logged step note) ({}, opened "alice" "2018-12-01 12:00" none) chosen =
      some (journal, s) ∧ journal.confirmed.head? = some place ∧
        s.MapShows (place.coordinate, ⟨some "Taipei", some "Xinyi", some "Taipei 101"⟩) := by
  have hturn : EachStep (logged step note) (fun s a => s.2.InTurn a)
      ({}, opened "alice" "2018-12-01 12:00" none) chosen := by
    decide
  have hrun : ((exec (logged step note) ({}, opened "alice" "2018-12-01 12:00" none) chosen).any
      fun s => s.2.requests.isEmpty ∧ s.1.answers.head?.any fun answer =>
        answer.2 = some ⟨some "Taipei", some "Xinyi", some "Taipei 101"⟩) = true := by
    decide
  obtain ⟨s, hs, hend⟩ := (Option.any_eq_true _ _).mp hrun
  obtain ⟨hback, hhead⟩ := of_decide_eq_true hend
  obtain ⟨answer, hanswer, hfound⟩ := (Option.any_eq_true _ _).mp hhead
  obtain ⟨place, hplace, hcoordinate, hshown⟩ := last_place_shown "alice" "2018-12-01 12:00" none
    chosen hturn s.1 s.2 hs (List.isEmpty_iff.mp hback) answer hanswer
  rw [← hcoordinate] at hshown
  exact ⟨s.1, s.2, place, hs, hplace, (hshown _ (of_decide_eq_true hfound)).2⟩

end PlaceForm

end GetTogether
