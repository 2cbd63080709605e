import GetTogether.MainVC
import GetTogether.Realtime.Run
import GetTogether.Roster.Submission

/-! All devices on one database. A screen keeps what it read when it was opened
and may act at any later time; screens of any users are interleaved freely. Each
screen is bound to the account it was opened by. -/
namespace GetTogether

open Realtime Roster

/-- `childByAutoId` never hands out the same key twice. -/
structure AutoId where
  key : Nat → String
  injective : Function.Injective key

/-- Keys of growing length. -/
def AutoId.unary : AutoId where
  key n := String.ofList (List.replicate (n + 1) 'k')
  injective := by
    intro m n h
    simpa using congrArg List.length (String.ofList_injective h)

/-- A runtime that hashes polynomially and lists sets in insertion order. -/
def Runtime.inOrder : Runtime where
  hashValue text := text.toList.foldl (fun hash c => hash * 31 + Int64.ofNat c.toNat) 7
  users := .inserted GUser
  strings := .inserted String

structure World where
  db : Store
  drawn : Nat
  contentVCs : List EventContentVC
  addVCs : List AddEventVC

inductive Action where
  | saveUser (user : GUser)
  | openEvent (uid eventID : String) (notificationID : Option String)
  | queryEventList (screen : Nat)
  | userFetched (screen fetch : Nat) (time : String)
  | queryUserData (screen : Nat)
  | agree (screen : Nat)
  | reject (screen : Nat)
  | dropOut (screen : Nat) (time : String)
  | newEvent (uid now : String)
  | editEvent (screen : Nat)
  | queryOrganiserData (screen : Nat)
  | didUpdateMember (screen : Nat) (user : GUser)
  | deleteData (screen item : Nat)
  | fillIn (screen : Nat) (form : Form)
  | done (screen : Nat)
  | uploaded (screen : Nat) (runtime : Runtime) (time url : String)

namespace World

def empty : World := ⟨.empty, 0, [], []⟩

/-- The row that opens an event: one of the main screen, or a notification of the user. -/
def opened (db : Store) (uid eventID : String) : Option String → Option EventContentVC
  | none => do
    let event ← Event.read db ["event", eventID]
    if MainVC.hosts uid event || MainVC.joins uid event then
      return { currentUser := uid, event, notification := none }
    else none
  | some notificationID => do
    let event ← Event.read db ["event", eventID]
    let notification ← GNotification.read db ["notification", notificationID]
    if notification.userID = uid then
      return { currentUser := uid, event, notification := some notification }
    else none

def setContent (w : World) (screen : Nat) (vc : EventContentVC) : World :=
  { w with contentVCs := w.contentVCs.set screen vc }

def setAdd (w : World) (screen : Nat) (vc : AddEventVC) : World :=
  { w with addVCs := w.addVCs.set screen vc }

def write (w : World) (writes : List Write) : World := { w with db := w.db.applyAll writes }

def draw (w : World) (count : Nat) : World := { w with drawn := w.drawn + count }

/-- The edit screen reacts to taps until done was pressed. -/
def editing (w : World) (screen : Nat) : Option AddEventVC :=
  (w.addVCs[screen]?).filter (·.phase = .editing)

variable (ids : AutoId)

/-- One action; `none` when it is not offered or stops the app. -/
def step (w : World) : Action → Option World
  | .saveUser user =>
    if user.userID = "" then none
    else some (w.write [.setValue ["user", user.userID] user.uploadedUserData])
  | .openEvent uid eventID notificationID => do
    let vc ← opened w.db uid eventID notificationID
    if uid = "" then none
    else return { w with contentVCs := w.contentVCs ++ [vc] }
  | .queryEventList screen => do
    let vc ← w.contentVCs[screen]?
    let vc' ← vc.queryEventList w.db
    return w.setContent screen vc'
  | .userFetched screen fetch time => do
    let vc ← w.contentVCs[screen]?
    let eventList ← vc.userFetches[fetch]?
    let vc' ← vc.userFetched w.db eventList time (ids.key w.drawn)
    return (w.setContent screen vc').draw 1
  | .queryUserData screen => do
    let vc ← w.contentVCs[screen]?
    let vc' ← vc.queryUserData w.db
    return w.setContent screen vc'
  | .agree screen => do
    let vc ← w.contentVCs[screen]?
    let prompt ← vc.answerSelector
    return (w.write (vc.agree prompt)).setContent screen vc.agreed
  | .reject screen => do
    let vc ← w.contentVCs[screen]?
    let prompt ← vc.answerSelector
    if (vc.reject prompt).trapped then none
    else return (w.write (vc.reject prompt).writes).setContent screen vc.rejected
  | .dropOut screen time => do
    let vc ← w.contentVCs[screen]?
    if vc.offersEdit || !vc.showsDropOutAlert then none
    else return (w.write (vc.dropOut (ids.key w.drawn) time)).draw 1
  | .newEvent uid now =>
    if uid = "" then none
    else some { w with addVCs := w.addVCs ++ [.newEvent uid now] }
  | .editEvent screen => do
    let vc ← w.contentVCs[screen]?
    if vc.offersEdit then return { w with addVCs := w.addVCs ++ [.editEvent vc] } else none
  | .queryOrganiserData screen => do
    let vc ← w.addVCs[screen]?
    let vc' ← vc.queryOrganiserData w.db
    return w.setAdd screen vc'
  | .didUpdateMember screen user => do
    let vc ← w.editing screen
    if w.db.contains ["user", user.userID] && user.userID ≠ "" then
      return w.setAdd screen (vc.didUpdateMember user)
    else none
  | .deleteData screen item => do
    let vc ← w.editing screen
    let vc' ← vc.deleteData item
    return w.setAdd screen vc'
  | .fillIn screen form => do
    let vc ← w.editing screen
    return w.setAdd screen { vc with form }
  | .done screen => do
    let vc ← w.editing screen
    return (w.setAdd screen (vc.done (ids.key w.drawn))).draw 1
  | .uploaded screen runtime time url => do
    let vc ← w.addVCs[screen]?
    match vc.phase with
    | .uploading autoID =>
      let outcome := vc.uploadEventData runtime (some vc.currentUser) autoID
        (fun n => ids.key (w.drawn + n)) time url
      return ((w.write outcome.writes).setAdd screen { vc with phase := .finished }).draw
        ((vc.removedMembers runtime).length + (vc.editedMembers runtime).length)
    | _ => none

inductive Step (w : World) : Action → World → Prop
  | saveUser {user : GUser} : user.userID ≠ "" →
      Step w (.saveUser user) (w.write [.setValue ["user", user.userID] user.uploadedUserData])
  | openEvent {uid eventID : String} {notificationID : Option String} {vc : EventContentVC} :
      opened w.db uid eventID notificationID = some vc → uid ≠ "" →
      Step w (.openEvent uid eventID notificationID) { w with contentVCs := w.contentVCs ++ [vc] }
  | queryEventList {screen : Nat} {vc vc' : EventContentVC} :
      w.contentVCs[screen]? = some vc → vc.queryEventList w.db = some vc' →
      Step w (.queryEventList screen) (w.setContent screen vc')
  | userFetched {screen fetch : Nat} {time : String} {vc vc' : EventContentVC}
      {eventList : EventList} :
      w.contentVCs[screen]? = some vc → vc.userFetches[fetch]? = some eventList →
      vc.userFetched w.db eventList time (ids.key w.drawn) = some vc' →
      Step w (.userFetched screen fetch time) ((w.setContent screen vc').draw 1)
  | queryUserData {screen : Nat} {vc vc' : EventContentVC} :
      w.contentVCs[screen]? = some vc → vc.queryUserData w.db = some vc' →
      Step w (.queryUserData screen) (w.setContent screen vc')
  | agree {screen : Nat} {vc : EventContentVC} {prompt : AnswerSelector} :
      w.contentVCs[screen]? = some vc → vc.answerSelector = some prompt →
      Step w (.agree screen) ((w.write (vc.agree prompt)).setContent screen vc.agreed)
  | reject {screen : Nat} {vc : EventContentVC} {prompt : AnswerSelector}
      {notification : GNotification} :
      w.contentVCs[screen]? = some vc → vc.answerSelector = some prompt →
      vc.notification = some notification →
      Step w (.reject screen) ((w.write (vc.reject prompt).writes).setContent screen vc.rejected)
  | dropOut {screen : Nat} {time : String} {vc : EventContentVC} :
      w.contentVCs[screen]? = some vc → vc.currentUser ≠ vc.event.organiserID →
      vc.currentUser ∈ vc.event.memberIDs →
      Step w (.dropOut screen time) ((w.write (vc.dropOut (ids.key w.drawn) time)).draw 1)
  | newEvent {uid now : String} : uid ≠ "" →
      Step w (.newEvent uid now) { w with addVCs := w.addVCs ++ [.newEvent uid now] }
  | editEvent {screen : Nat} {vc : EventContentVC} :
      w.contentVCs[screen]? = some vc → vc.currentUser = vc.event.organiserID →
      Step w (.editEvent screen) { w with addVCs := w.addVCs ++ [.editEvent vc] }
  | queryOrganiserData {screen : Nat} {vc vc' : AddEventVC} :
      w.addVCs[screen]? = some vc → vc.queryOrganiserData w.db = some vc' →
      Step w (.queryOrganiserData screen) (w.setAdd screen vc')
  | didUpdateMember {screen : Nat} {vc : AddEventVC} {user : GUser} :
      w.addVCs[screen]? = some vc → vc.phase = .editing →
      w.db.contains ["user", user.userID] = true → user.userID ≠ "" →
      Step w (.didUpdateMember screen user) (w.setAdd screen (vc.didUpdateMember user))
  | deleteData {screen item : Nat} {vc vc' : AddEventVC} :
      w.addVCs[screen]? = some vc → vc.phase = .editing → vc.deleteData item = some vc' →
      Step w (.deleteData screen item) (w.setAdd screen vc')
  | fillIn {screen : Nat} {vc : AddEventVC} {form : Form} :
      w.addVCs[screen]? = some vc → vc.phase = .editing →
      Step w (.fillIn screen form) (w.setAdd screen { vc with form })
  | done {screen : Nat} {vc : AddEventVC} :
      w.addVCs[screen]? = some vc → vc.phase = .editing →
      Step w (.done screen) ((w.setAdd screen (vc.done (ids.key w.drawn))).draw 1)
  | uploaded {screen : Nat} {runtime : Runtime} {time url autoID : String} {vc : AddEventVC} :
      w.addVCs[screen]? = some vc → vc.phase = .uploading autoID →
      Step w (.uploaded screen runtime time url)
        (((w.write (vc.uploadEventData runtime (some vc.currentUser) autoID
          (fun n => ids.key (w.drawn + n)) time url).writes).setAdd screen
            { vc with phase := .finished }).draw
          ((vc.removedMembers runtime).length + (vc.editedMembers runtime).length))

theorem editing_eq_some {w : World} {screen : Nat} {vc : AddEventVC} :
    w.editing screen = some vc ↔ w.addVCs[screen]? = some vc ∧ vc.phase = .editing := by
  simp [editing, Option.filter_eq_some_iff]

theorem Step.of_step {w w' : World} {a : Action} (h : step ids w a = some w') :
    Step ids w a w' := by
  cases a with
  | saveUser user =>
    simp only [step, Option.ite_none_left_eq_some, Option.some.injEq] at h
    obtain ⟨huser, rfl⟩ := h
    exact .saveUser huser
  | openEvent uid eventID notificationID =>
    simp only [step, Option.bind_eq_bind, Option.bind_eq_some_iff, Option.ite_none_left_eq_some,
      Option.pure_def, Option.some.injEq] at h
    obtain ⟨vc, hvc, huid, rfl⟩ := h
    exact .openEvent hvc huid
  | queryEventList screen =>
    simp only [step, Option.bind_eq_bind, Option.bind_eq_some_iff, Option.pure_def,
      Option.some.injEq] at h
    obtain ⟨vc, hvc, vc', hvc', rfl⟩ := h
    exact .queryEventList hvc hvc'
  | userFetched screen fetch time =>
    simp only [step, Option.bind_eq_bind, Option.bind_eq_some_iff, Option.pure_def,
      Option.some.injEq] at h
    obtain ⟨vc, hvc, eventList, hlist, vc', hvc', rfl⟩ := h
    exact .userFetched hvc hlist hvc'
  | queryUserData screen =>
    simp only [step, Option.bind_eq_bind, Option.bind_eq_some_iff, Option.pure_def,
      Option.some.injEq] at h
    obtain ⟨vc, hvc, vc', hvc', rfl⟩ := h
    exact .queryUserData hvc hvc'
  | agree screen =>
    simp only [step, Option.bind_eq_bind, Option.bind_eq_some_iff, Option.pure_def,
      Option.some.injEq] at h
    obtain ⟨vc, hvc, prompt, hprompt, rfl⟩ := h
    exact .agree hvc hprompt
  | reject screen =>
    simp only [step, Option.bind_eq_bind, Option.bind_eq_some_iff, Option.pure_def,
      Option.ite_none_left_eq_some, Option.some.injEq] at h
    obtain ⟨vc, hvc, prompt, hprompt, htrap, rfl⟩ := h
    cases hnotification : vc.notification with
    | none => simp [EventContentVC.reject, hnotification, Outcome.trap] at htrap
    | some notification => exact .reject hvc hprompt hnotification
  | dropOut screen time =>
    simp only [step, Option.bind_eq_bind, Option.bind_eq_some_iff, Option.pure_def,
      Option.ite_none_left_eq_some, Option.some.injEq] at h
    obtain ⟨vc, hvc, hoffer, rfl⟩ := h
    simp only [EventContentVC.offersEdit, EventContentVC.showsDropOutAlert, Bool.or_eq_true,
      decide_eq_true_eq, Bool.not_eq_true', decide_eq_false_iff_not, not_or, not_not] at hoffer
    exact .dropOut hvc hoffer.1 hoffer.2
  | newEvent uid now =>
    simp only [step, Option.ite_none_left_eq_some, Option.some.injEq] at h
    obtain ⟨huid, rfl⟩ := h
    exact .newEvent huid
  | editEvent screen =>
    simp only [step, Option.bind_eq_bind, Option.bind_eq_some_iff, Option.pure_def,
      Option.ite_none_right_eq_some, Option.some.injEq] at h
    obtain ⟨vc, hvc, hoffer, rfl⟩ := h
    exact .editEvent hvc (of_decide_eq_true hoffer)
  | queryOrganiserData screen =>
    simp only [step, Option.bind_eq_bind, Option.bind_eq_some_iff, Option.pure_def,
      Option.some.injEq] at h
    obtain ⟨vc, hvc, vc', hvc', rfl⟩ := h
    exact .queryOrganiserData hvc hvc'
  | didUpdateMember screen user =>
    simp only [step, Option.bind_eq_bind, Option.bind_eq_some_iff, Option.pure_def,
      Option.ite_none_right_eq_some, Option.some.injEq, editing_eq_some, Bool.and_eq_true,
      decide_eq_true_eq] at h
    obtain ⟨vc, ⟨hvc, hphase⟩, ⟨hfound, huser⟩, rfl⟩ := h
    exact .didUpdateMember hvc hphase hfound huser
  | deleteData screen item =>
    simp only [step, Option.bind_eq_bind, Option.bind_eq_some_iff, Option.pure_def,
      Option.some.injEq, editing_eq_some] at h
    obtain ⟨vc, ⟨hvc, hphase⟩, vc', hvc', rfl⟩ := h
    exact .deleteData hvc hphase hvc'
  | fillIn screen form =>
    simp only [step, Option.bind_eq_bind, Option.bind_eq_some_iff, Option.pure_def,
      Option.some.injEq, editing_eq_some] at h
    obtain ⟨vc, ⟨hvc, hphase⟩, rfl⟩ := h
    exact .fillIn hvc hphase
  | done screen =>
    simp only [step, Option.bind_eq_bind, Option.bind_eq_some_iff, Option.pure_def,
      Option.some.injEq, editing_eq_some] at h
    obtain ⟨vc, ⟨hvc, hphase⟩, rfl⟩ := h
    exact .done hvc hphase
  | uploaded screen runtime time url =>
    simp only [step, Option.bind_eq_bind, Option.bind_eq_some_iff, Option.pure_def] at h
    obtain ⟨vc, hvc, h⟩ := h
    split at h
    · next autoID hphase =>
      obtain rfl := Option.some.inj h
      exact .uploaded hvc hphase
    · cases h

/-! A run to try things on: Alice creates an event and invites Bob. -/

def alice : GUser := ⟨"alice", "alice@mail", "Alice", "alice.jpg"⟩

def bob : GUser := ⟨"bob", "bob@mail", "Bob", "bob.jpg"⟩

def carol : GUser := ⟨"carol", "carol@mail", "Carol", "carol.jpg"⟩

def party : Form := ⟨"Party", "2018-12-24 18:00", "Taipei", "Dinner", false⟩

def creation : List Action :=
  [.saveUser alice, .saveUser bob, .newEvent "alice" "2018-12-01 12:00", .queryOrganiserData 0,
    .didUpdateMember 0 bob, .fillIn 0 party, .done 0, .uploaded 0 .inOrder "2018-12-01" "party.jpg"]

example : ((exec (step .unary) empty creation).bind fun w =>
    w.db.bool? ["invitingEventList", "bob", "k", "isReply"]) = some false := by
  decide

end World

end GetTogether
