import GetTogether.Selection

/-! The form of the screen that creates or edits an event. Pressing done checks the title,
the place and the description once; the texts are read again when the image has been
uploaded, and until then a place may still come back from the geocoder. -/
namespace GetTogether

open Realtime Roster

/-- The parts of a `CLPlacemark` that `getCoordinate` reads. -/
structure Placemark where
  subAdministrativeArea : Option String
  locality : Option String
  name : Option String
  deriving DecidableEq, Repr

def Placemark.address (placemark : Placemark) : String :=
  placemark.subAdministrativeArea.getD "" ++ placemark.locality.getD "" ++
    placemark.name.getD ""

/-- The text of the label while no place has been chosen. -/
def notChosen : String := "尚未選擇"

/-- The text of the description before it is edited. -/
def descriptionPlaceholder : String := "為你的活動添加一點描述吧！"

structure EventForm where
  vc : AddEventVC
  geocodings : Nat := 0
  placemark : Option Placemark := none
  typed : List String := []

namespace EventForm

inductive Action where
  | typeTitle (text : String)
  | typeDescription (text : String)
  | textViewDidBeginEditing
  | dateChanged (timeZone : TimeZone) (date : ℚ)
  | select (selection : Selection)
  | queryOrganiserData (db : Store)
  | getCoordinate
  /-- A geocoding comes back, without a placemark when it failed or found none. -/
  | geocoded (placemark : Option Placemark)
  | done (autoID : String)
  | uploaded (runtime : Runtime) (uid : String) (newID : Nat → String) (time url : String)

def opened (currentUser now : String) : Option EventContentVC → EventForm
  | none => { vc := .newEvent currentUser now }
  | some content => { vc := .editEvent content }

def withForm (s : EventForm) (form : Form) : EventForm := { s with vc := { s.vc with form } }

/-- Focusing takes the placeholder away, and its colour. -/
def textViewDidBeginEditing (form : Form) : Form :=
  if form.description = descriptionPlaceholder then
    { form with description := "", descriptionIsGrey := false }
  else form

def geocoded (s : EventForm) : Option Placemark → EventForm
  | none => { s with geocodings := s.geocodings - 1 }
  | some placemark => { s.withForm { s.vc.form with location := placemark.address } with
      geocodings := s.geocodings - 1
      placemark := some placemark }

def stepEditing (s : EventForm) : Action → Option EventForm
  | .typeTitle text => some (s.withForm { s.vc.form with title := text })
  | .typeDescription text => some { s.withForm { s.vc.form with description := text } with
      typed := text :: s.typed }
  | .textViewDidBeginEditing => some (s.withForm (textViewDidBeginEditing s.vc.form))
  | .dateChanged timeZone date => some { s with vc := s.vc.dateChanged timeZone date }
  | .select selection => (s.vc.select selection).map fun vc => { s with vc }
  | .getCoordinate => some { s with geocodings := s.geocodings + 1 }
  | .done autoID => some { s with vc := s.vc.done autoID }
  | _ => none

/-- Taps reach the screen until done was accepted; callbacks reach it at any time. -/
def step (s : EventForm) : Action → Option EventForm
  | .queryOrganiserData db => (s.vc.queryOrganiserData db).map fun vc => { s with vc }
  | .geocoded placemark => if 0 < s.geocodings then some (s.geocoded placemark) else none
  | .uploaded runtime _ _ _ _ =>
    match s.vc.phase with
    | .uploading _ =>
      if World.Completes s.vc runtime then some { s with vc := { s.vc with phase := .finished } }
      else none
    | _ => none
  | a => if s.vc.phase = .editing then s.stepEditing a else none

/-- What the label of the place shows: the place that came back last, or what the screen
was opened with. -/
def label (s : EventForm) : String :=
  match s.placemark, s.vc.event with
  | some placemark, _ => placemark.address
  | none, some event => event.location
  | none, none => notChosen

/-- The description is one the user typed, or that of the event before. -/
def Entered (s : EventForm) (description : String) : Prop :=
  description ∈ s.typed ∨ ∃ event, s.vc.event = some event ∧ description = event.description

/-- Every field that the screen asks for is filled in. -/
structure Complete (s : EventForm) (event : Event) : Prop where
  title : event.title ≠ ""
  location : event.location ≠ ""
  chosen : event.location ≠ notChosen
  description : event.description ≠ ""
  entered : s.Entered event.description

/-- The completion writes one event, and that one is complete. -/
def WritesComplete (s : EventForm) (a : Action) : Prop :=
  ∀ runtime uid newID time url autoID, a = .uploaded runtime uid newID time url →
    s.vc.phase = .uploading autoID →
    (s.vc.uploadEventData runtime (some uid) autoID newID time url).writes.filter
        (recipient · = none) = [.setValue ["event", s.vc.submittedID autoID]
      (s.vc.storedEvent runtime uid (s.vc.submittedID autoID) url).uploadedEventData] ∧
    s.Complete (s.vc.storedEvent runtime uid (s.vc.submittedID autoID) url)

/-- At the upload the place that came back last has an address other than the text for no
place; where none came back, the event had a place before. -/
def Located (s : EventForm) (a : Action) : Prop :=
  ∀ runtime uid newID time url, a = .uploaded runtime uid newID time url →
    (∀ placemark, s.placemark = some placemark →
      placemark.address ≠ "" ∧ placemark.address ≠ notChosen) ∧
    (s.placemark = none → ∀ event, s.vc.event = some event → event.location ≠ "")

structure Filled (s : EventForm) : Prop where
  location : s.vc.form.location = s.label
  description : s.vc.form.descriptionIsGrey = false →
    s.vc.form.description = "" ∨ s.Entered s.vc.form.description
  accepted : ∀ autoID, s.vc.phase = .uploading autoID → s.vc.form.title ≠ "" ∧
    s.vc.form.description ≠ "" ∧ s.vc.form.descriptionIsGrey = false ∧
      (s.placemark = none → s.vc.form.location ≠ notChosen)

theorem filled_opened (currentUser now : String) (content : Option EventContentVC) :
    (opened currentUser now content).Filled := by
  cases content with
  | none =>
    constructor
    · rfl
    · intro h
      cases h
    · intro autoID h
      cases h
  | some content =>
    constructor
    · rfl
    · intro _
      exact .inr (.inr ⟨content.event, rfl, rfl⟩)
    · intro autoID h
      cases h

variable {s s' : EventForm} {a : Action}

theorem Filled.of_editing (hphase : s.vc.phase = .editing) (hlocation : s.vc.form.location = s.label)
    (hdescription : s.vc.form.descriptionIsGrey = false →
      s.vc.form.description = "" ∨ s.Entered s.vc.form.description) : s.Filled := by
  refine ⟨hlocation, hdescription, ?_⟩
  intro autoID h
  rw [hphase] at h
  cases h

theorem Filled.of_same (hs : s.Filled) {vc : AddEventVC} (hform : vc.form = s.vc.form)
    (hevent : vc.event = s.vc.event) (hphase : vc.phase = s.vc.phase) :
    { s with vc }.Filled := by
  obtain ⟨hlocation, hdescription, haccepted⟩ := hs
  refine ⟨?_, ?_, ?_⟩
  · simp only [label, hform, hevent]
    exact hlocation
  · simp only [Entered, hform, hevent]
    exact hdescription
  · simp only [hform, hphase]
    exact haccepted

theorem accepts_iff (form : Form) : AddEventVC.accepts form = true ↔ form.title ≠ "" ∧
    form.location ≠ notChosen ∧ form.description ≠ "" ∧ form.descriptionIsGrey = false := by
  simp [AddEventVC.accepts, notChosen]

theorem Filled.done (hs : s.Filled) (autoID : String) :
    { s with vc := s.vc.done autoID }.Filled := by
  unfold AddEventVC.done
  split
  · next haccepts =>
    obtain ⟨htitle, hchosen, hdescription, hgrey⟩ := (accepts_iff _).mp haccepts
    exact ⟨hs.location, hs.description, fun _ _ => ⟨htitle, hdescription, hgrey, fun _ => hchosen⟩⟩
  · exact hs

theorem Filled.stepEditing (hs : s.Filled) (hphase : s.vc.phase = .editing)
    (h : s.stepEditing a = some s') : s'.Filled := by
  cases a with
  | typeTitle text =>
    obtain rfl := Option.some.inj h
    exact .of_editing hphase hs.location hs.description
  | typeDescription text =>
    obtain rfl := Option.some.inj h
    exact .of_editing hphase hs.location fun _ => .inr (.inl List.mem_cons_self)
  | textViewDidBeginEditing =>
    obtain rfl := Option.some.inj h
    unfold textViewDidBeginEditing
    split
    · exact .of_editing hphase hs.location fun _ => .inl rfl
    · exact .of_editing hphase hs.location hs.description
  | dateChanged timeZone date =>
    obtain rfl := Option.some.inj h
    unfold AddEventVC.dateChanged
    generalize (dateFormatter timeZone).string date = text
    exact .of_editing hphase hs.location hs.description
  | select selection =>
    obtain ⟨vc, hvc, rfl⟩ := Option.map_eq_some_iff.mp h
    rcases AddEventVC.select_cases hvc with rfl | ⟨user, -, -, rfl⟩ | ⟨item, removed, -, rfl⟩
    · exact hs
    · exact hs.of_same rfl rfl rfl
    · exact hs.of_same rfl rfl rfl
  | getCoordinate =>
    obtain rfl := Option.some.inj h
    exact ⟨hs.location, hs.description, hs.accepted⟩
  | done autoID =>
    obtain rfl := Option.some.inj h
    exact hs.done autoID
  | _ => cases h

theorem Filled.step (hs : s.Filled) (h : s.step a = some s') : s'.Filled := by
  cases a with
  | queryOrganiserData db =>
    obtain ⟨vc, hvc, rfl⟩ := Option.map_eq_some_iff.mp h
    obtain ⟨user, rfl⟩ := AddEventVC.queryOrganiserData_eq_some hvc
    exact hs.of_same rfl rfl rfl
  | geocoded placemark =>
    simp only [EventForm.step, Option.ite_none_right_eq_some, Option.some.injEq] at h
    obtain ⟨-, rfl⟩ := h
    cases placemark with
    | none => exact ⟨hs.location, hs.description, hs.accepted⟩
    | some placemark =>
      refine ⟨rfl, hs.description, ?_⟩
      intro autoID hphase
      obtain ⟨htitle, hdescription, hgrey, -⟩ := hs.accepted autoID hphase
      refine ⟨htitle, hdescription, hgrey, ?_⟩
      intro hnone
      cases hnone
  | uploaded runtime uid newID time url =>
    simp only [EventForm.step] at h
    split at h
    · rw [Option.ite_none_right_eq_some, Option.some.injEq] at h
      obtain ⟨-, rfl⟩ := h
      refine ⟨hs.location, hs.description, ?_⟩
      intro autoID hphase
      cases hphase
    · cases h
  | _ =>
    simp only [EventForm.step, Option.ite_none_right_eq_some] at h
    exact hs.stepEditing h.1 h.2

/-- When the label names a place, given that done has not accepted it as it was opened. -/
theorem label_iff (hchosen : s.placemark = none → s.label ≠ notChosen) :
    s.label ≠ "" ∧ s.label ≠ notChosen ↔
      (∀ placemark, s.placemark = some placemark →
        placemark.address ≠ "" ∧ placemark.address ≠ notChosen) ∧
      (s.placemark = none → ∀ event, s.vc.event = some event → event.location ≠ "") := by
  unfold label at *
  cases hplacemark : s.placemark with
  | some placemark => simp
  | none =>
    have hnot := hchosen hplacemark
    rw [hplacemark] at hnot
    cases hevent : s.vc.event with
    | none => simp [notChosen, hevent] at hnot
    | some event =>
      rw [hevent] at hnot
      simpa using fun _ => hnot

theorem writesComplete_iff (hs : s.Filled) (h : s.step a = some s') :
    s.WritesComplete a ↔ s.Located a := by
  cases a with
  | uploaded runtime uid newID time url =>
    simp only [EventForm.step] at h
    split at h
    · next autoID hphase =>
      rw [Option.ite_none_right_eq_some] at h
      obtain ⟨htitle, hdescription, hgrey, hchosen⟩ := hs.accepted autoID hphase
      rw [hs.location] at hchosen
      have hlabel := label_iff hchosen
      have hwrites := (submits_uploadEventData s.vc runtime newID time uid autoID url h.1).event
      constructor
      · intro hcomplete runtime' uid' newID' time' url' ha
        obtain ⟨-, hstored⟩ := hcomplete runtime uid newID time url autoID rfl hphase
        apply hlabel.mp
        rw [← hs.location]
        exact ⟨hstored.location, hstored.chosen⟩
      · intro hlocated runtime' uid' newID' time' url' autoID' ha hphase'
        cases ha
        obtain rfl := Phase.uploading.inj (hphase.symm.trans hphase')
        have hplace := hlabel.mpr (hlocated runtime uid newID time url rfl)
        rw [← hs.location] at hplace
        exact ⟨hwrites, htitle, hplace.1, hplace.2, hdescription,
          (hs.description hgrey).resolve_left hdescription⟩
    · cases h
  | _ =>
    refine iff_of_true ?_ ?_
    · intro _ _ _ _ _ _ ha
      cases ha
    · intro _ _ _ _ _ ha
      cases ha

/-- Every event a run writes is complete exactly when its place was found, at the time of
every write. -/
theorem stored_events_complete_iff (currentUser now : String) (content : Option EventContentVC)
    (run : List Action) :
    EachStep step WritesComplete (opened currentUser now content) run ↔
      EachStep step Located (opened currentUser now content) run := by
  apply eachStep_iff Filled
  · intro s a s' hs h
    exact writesComplete_iff hs h
  · intro s a s' hs _ h
    exact hs.step h
  · exact filled_opened currentUser now content

/-- A place in the open sea, of which the geocoder knows no part. -/
def nowhere : Placemark := ⟨none, none, none⟩

/-- Done is pressed when the empty address has taken the place of the text for no place. -/
theorem empty_location_stored : ∃ s s' : EventForm,
    exec step (opened "alice" "2018-12-01 12:00" none) [.typeTitle "Party",
      .textViewDidBeginEditing, .typeDescription "Dinner", .getCoordinate,
      .geocoded (some nowhere), .done "k"] = some s ∧
    s.step (.uploaded .inOrder "alice" AutoId.unary.key "2018-12-01 12:00:00" "k.jpg") = some s' ∧
    ¬s.WritesComplete (.uploaded .inOrder "alice" AutoId.unary.key "2018-12-01 12:00:00" "k.jpg") := by
  refine ⟨_, _, rfl, rfl, ?_⟩
  intro h
  have hcomplete := (h _ _ _ _ _ "k" rfl rfl).2
  exact hcomplete.location rfl

end EventForm

end GetTogether
