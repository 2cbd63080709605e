import GetTogether.World.Copies

/-! The system used by one person at a time: every operation opens its screens on the
current database, loads them, writes, and is over before the next one starts. Only
whether the organiser waits for the list of members before editing is left open. -/
namespace GetTogether

open Realtime Roster

inductive MemberTap where
  | add (user : GUser)
  | delete (item : Nat)

/-- What the organiser enters before done is pressed, and what the runtime makes of it. -/
structure Entry where
  taps : List MemberTap
  form : Form
  runtime : Runtime
  time : String
  url : String

inductive Operation where
  | saveUser (user : GUser)
  | create (uid now : String) (entry : Entry)
  | edit (uid eventID : String) (notificationID : Option String) (membersLoaded : Bool)
      (entry : Entry)
  | accept (uid eventID : String) (notificationID : Option String) (time : String)
  | reject (uid eventID : String) (notificationID : Option String) (time : String)
  | dropOut (uid eventID : String) (notificationID : Option String) (time : String)

/-- Whether the screens of the operation are fully loaded when the user acts on them. -/
def Operation.fullyLoaded : Operation → Bool
  | .edit _ _ _ membersLoaded _ => membersLoaded
  | _ => true

/-- The event screen when all its fetches have come back. -/
def EventContentVC.loaded (vc : EventContentVC) (db : Store) (time notificationID : String) :
    Option EventContentVC := do
  let vc ← vc.queryEventList db
  let vc ← vc.userFetches.foldlM
    (fun vc eventList => vc.userFetched db eventList time notificationID) vc
  vc.queryUserData db

/-- The event screen when edit is pressed, with or without waiting for the fetches. -/
def EventContentVC.awaited (vc : EventContentVC) (db : Store) (membersLoaded : Bool)
    (time notificationID : String) : Option EventContentVC :=
  if membersLoaded then vc.loaded db time notificationID else some vc

def AddEventVC.organiserLoaded (vc : AddEventVC) (db : Store) : Option AddEventVC :=
  (vc.queryOrganiserData db).filter (·.user.isSome)

/-- The edit screen after some taps; a user can only be added when the search finds one. -/
def AddEventVC.tapped (db : Store) (vc : AddEventVC) : List MemberTap → Option AddEventVC
  | [] => some vc
  | .add user :: taps =>
    if db.contains ["user", user.userID] = true ∧ user.userID ≠ "" then
      tapped db (vc.didUpdateMember user) taps
    else none
  | .delete item :: taps => (vc.deleteData item).bind fun vc => tapped db vc taps

structure Session where
  db : Store
  drawn : Nat

namespace Session

def empty : Session := ⟨.empty, 0⟩

def opened (s : Session) (uid eventID : String) (notificationID : Option String) :
    Option EventContentVC :=
  (World.opened s.db uid eventID notificationID).filter fun _ => uid ≠ ""

variable (ids : AutoId)

def editScreen (s : Session) : Operation → Option AddEventVC
  | .create uid now entry => do
    let vc ← (AddEventVC.newEvent uid now).organiserLoaded s.db
    let vc ← vc.tapped s.db entry.taps
    if uid = "" then none else return { vc with form := entry.form }
  | .edit uid eventID notificationID membersLoaded entry => do
    let vc ← s.opened uid eventID notificationID
    let vc ← vc.awaited s.db membersLoaded entry.time (ids.key s.drawn)
    if vc.offersEdit then
      let vc ← (AddEventVC.editEvent vc).organiserLoaded s.db
      let vc ← vc.tapped s.db entry.taps
      return { vc with form := entry.form }
    else none
  | _ => none

/-- Done is pressed, and the upload completes if the form is accepted: the writes and
how many keys were drawn for them. -/
def submitted (s : Session) (vc : AddEventVC) (entry : Entry) : Option (List Write × Nat) :=
  let autoID := ids.key s.drawn
  if (vc.done autoID).phase = .uploading autoID then
    some (((vc.done autoID).uploadEventData entry.runtime (some vc.currentUser) autoID
        (fun n => ids.key (s.drawn + 1 + n)) entry.time entry.url).writes,
      1 + (vc.removedMembers entry.runtime).length + (vc.editedMembers entry.runtime).length)
  else none

/-- The writes of an operation in their order, and how many keys were drawn for them;
`none` when the operation is not offered or stops the app. -/
def issued (s : Session) : Operation → Option (List Write × Nat)
  | .saveUser user =>
    if user.userID = "" then none
    else some ([.setValue ["user", user.userID] user.uploadedUserData], 0)
  | .create uid now entry =>
    (s.editScreen ids (.create uid now entry)).bind fun vc => submitted ids s vc entry
  | .edit uid eventID notificationID membersLoaded entry =>
    (s.editScreen ids (.edit uid eventID notificationID membersLoaded entry)).bind fun vc =>
      submitted ids s vc entry
  | .accept uid eventID notificationID time => do
    let vc ← s.opened uid eventID notificationID
    let vc ← vc.loaded s.db time (ids.key s.drawn)
    let prompt ← vc.answerSelector
    return (vc.agree prompt, 1)
  | .reject uid eventID notificationID time => do
    let vc ← s.opened uid eventID notificationID
    let vc ← vc.loaded s.db time (ids.key s.drawn)
    let prompt ← vc.answerSelector
    if (vc.reject prompt).trapped then none else return ((vc.reject prompt).writes, 1)
  | .dropOut uid eventID notificationID time => do
    let vc ← s.opened uid eventID notificationID
    let vc ← vc.loaded s.db time (ids.key s.drawn)
    if vc.offersEdit || !vc.showsDropOutAlert then none
    else return (vc.dropOut (ids.key s.drawn) time, 1)

def step (s : Session) (op : Operation) : Option Session :=
  (s.issued ids op).map fun issued => ⟨s.db.applyAll issued.1, s.drawn + issued.2⟩

/-- The same system with operations on fully loaded screens only. -/
def loadedStep (s : Session) (op : Operation) : Option Session :=
  if op.fullyLoaded then step ids s op else none

/-! A run to try things on: Alice creates an event and invites Bob. -/

open World (alice bob party)

def invitation : List Operation :=
  [.saveUser alice, .saveUser bob,
    .create "alice" "2018-12-01 12:00" ⟨[.add bob], party, .inOrder, "2018-12-01", "party.jpg"⟩]

example : ((exec (step .unary) empty
    (invitation ++ [.accept "bob" "k" (some "kk") "2018-12-02"])).bind fun s =>
      s.db.array? ["event", "k", "memberIDs"]) = some ["", "bob"] := by
  decide

end Session

end GetTogether
