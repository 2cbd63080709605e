import GetTogether.CommentTable
import GetTogether.Comments.Notifications
import GetTogether.NotificationVC
import GetTogether.World

/-! The whole app on one database: the screens that create, show and answer events, and
beside them the comment screens and the notification lists. -/
namespace GetTogether

open Realtime Roster

structure Input where
  vc : CommentVC
  currentUser : String
  commentID : String
  time : String
  fetched : Bool := false
  deriving DecidableEq, Repr

structure Inbox where
  currentUser : String
  vc : NotificationVC := {}
  deriving DecidableEq, Repr

structure Feed where
  world : World
  commentVCs : List CommentTable
  inputs : List Input
  inboxes : List Inbox

namespace World

def author (w : World) : Action → Option String
  | .saveUser user => some user.userID
  | .openEvent uid _ _ | .newEvent uid _ => some uid
  | .queryEventList screen | .userFetched screen _ _ | .queryUserData screen | .agree screen
  | .reject screen | .dropOut screen _ | .editEvent screen =>
    (w.contentVCs[screen]?).map (·.currentUser)
  | .queryOrganiserData screen | .didUpdateMember screen _ | .deleteData screen _
  | .fillIn screen _ | .done screen | .uploaded screen _ _ _ =>
    (w.addVCs[screen]?).map (·.currentUser)

end World

namespace Feed

inductive Action where
  | base (action : GetTogether.Action)
  | openComments (screen : Nat)
  | table (screen : Nat) (action : CommentTable.Action)
  | inputPressed (screen : Nat) (content : String) (timeZone : TimeZone) (now : ℚ)
  | senderFetched (input : Nat)
  | openNotifications (uid : String)
  | queryNotification (inbox : Nat) (order : NotificationVC.NewestFirst)
  | didSelectRow (inbox row : Nat)

def empty : Feed := ⟨World.empty, [], [], []⟩

def write (f : Feed) (writes : List Write) : Feed := { f with world := f.world.write writes }

def draw (f : Feed) (count : Nat) : Feed := { f with world := f.world.draw count }

def author (f : Feed) : Action → Option String
  | .base action => f.world.author action
  | .openComments screen => (f.world.contentVCs[screen]?).map (·.currentUser)
  | .table screen _ | .inputPressed screen _ _ _ => (f.commentVCs[screen]?).bind (·.currentUser)
  | .senderFetched input => (f.inputs[input]?).map (·.currentUser)
  | .openNotifications uid => some uid
  | .queryNotification inbox _ | .didSelectRow inbox _ => (f.inboxes[inbox]?).map (·.currentUser)

end Feed

namespace CommentTable

/-- A delivery brings the comments that are stored. -/
def delivers (db : Store) (s : CommentTable) : Action → Bool
  | .delivered comments => CommentVC.readComments db s.vc.event.eventID = some comments
  | _ => true

def written (s : CommentTable) : Action → List Write
  | .commitDelete => (s.swiped.bind s.commit).getD []
  | _ => []

end CommentTable

namespace Input

/-- How many keys the completion of the fetch draws: one for every member it tells. -/
def drawn (input : Input) : Nat :=
  if input.currentUser = input.vc.event.organiserID then input.vc.memberData.length
  else (input.vc.memberData.filter (input.currentUser ≠ ·.userID)).length

/-- The completion of the fetch of the sender, who may have no record; a record with a
missing field ends the app. -/
def writes (input : Input) (db : Store) (newID : Nat → String) : Option (List Write) :=
  if db.contains ["user", input.currentUser] then
    (GUser.read db ["user", input.currentUser]).map fun sender =>
      input.vc.userFetched input.currentUser input.commentID sender newID input.time
  else some []

end Input

namespace Feed

variable (ids : AutoId)

/-- One action; `none` when it is not offered or stops the app. -/
def step (f : Feed) : Action → Option Feed
  | .base action => do
    let world ← World.step ids f.world action
    return { f with world }
  | .openComments screen => do
    let vc ← f.world.contentVCs[screen]?
    return { f with
      commentVCs := f.commentVCs ++ [.loaded (CommentVC.prepared vc) (some vc.currentUser)] }
  | .table screen action => do
    let s ← f.commentVCs[screen]?
    let s' ← s.step action
    if s.delivers f.world.db action && !s'.stopped then
      return { f.write (s.written action) with commentVCs := f.commentVCs.set screen s' }
    else none
  | .inputPressed screen content timeZone now => do
    let s ← f.commentVCs[screen]?
    let currentUser ← s.currentUser
    let commentID := ids.key f.world.drawn
    let input : Input := ⟨s.vc, currentUser, commentID, CommentVC.time timeZone now, false⟩
    return { (f.write (s.vc.inputPressed currentUser commentID content timeZone now)).draw 1 with
      inputs := f.inputs ++ [input] }
  | .senderFetched i => do
    let input ← f.inputs[i]?
    if input.fetched then none
    else do
      let writes ← input.writes f.world.db fun n => ids.key (f.world.drawn + n)
      return { (f.write writes).draw input.drawn with
        inputs := f.inputs.set i { input with fetched := true } }
  | .openNotifications uid =>
    if uid = "" then none else some { f with inboxes := f.inboxes ++ [⟨uid, {}⟩] }
  | .queryNotification i order => do
    let inbox ← f.inboxes[i]?
    let notifications ← NotificationVC.readNotifications f.world.db
    let vc := inbox.vc.delivered order notifications inbox.currentUser
    return { f with inboxes := f.inboxes.set i { inbox with vc } }
  | .didSelectRow i row => do
    let inbox ← f.inboxes[i]?
    let writes ← inbox.vc.didSelectRowAt row
    return f.write writes

inductive Step (f : Feed) : Action → Feed → Prop
  | base {action : GetTogether.Action} {world : World} : World.Step ids f.world action world →
      Step f (.base action) { f with world }
  | openComments {screen : Nat} {vc : EventContentVC} : f.world.contentVCs[screen]? = some vc →
      Step f (.openComments screen) { f with
        commentVCs := f.commentVCs ++ [.loaded (CommentVC.prepared vc) (some vc.currentUser)] }
  | table {screen : Nat} {action : CommentTable.Action} {s s' : CommentTable} :
      f.commentVCs[screen]? = some s → s.step action = some s' →
      s.delivers f.world.db action = true →
      Step f (.table screen action)
        { f.write (s.written action) with commentVCs := f.commentVCs.set screen s' }
  | inputPressed {screen : Nat} {content : String} {timeZone : TimeZone} {now : ℚ}
      {s : CommentTable} {currentUser : String} :
      f.commentVCs[screen]? = some s → s.currentUser = some currentUser →
      Step f (.inputPressed screen content timeZone now)
        { (f.write (s.vc.inputPressed currentUser (ids.key f.world.drawn) content timeZone
            now)).draw 1 with
          inputs := f.inputs ++ [⟨s.vc, currentUser, ids.key f.world.drawn,
            CommentVC.time timeZone now, false⟩] }
  | senderFetched {i : Nat} {input : Input} {writes : List Write} :
      f.inputs[i]? = some input → input.fetched = false →
      (input.writes f.world.db fun n => ids.key (f.world.drawn + n)) = some writes →
      Step f (.senderFetched i) { (f.write writes).draw input.drawn with
        inputs := f.inputs.set i { input with fetched := true } }
  | openNotifications {uid : String} : uid ≠ "" →
      Step f (.openNotifications uid) { f with inboxes := f.inboxes ++ [⟨uid, {}⟩] }
  | queryNotification {i : Nat} {order : NotificationVC.NewestFirst} {inbox : Inbox}
      {notifications : List GNotification} :
      f.inboxes[i]? = some inbox →
      NotificationVC.readNotifications f.world.db = some notifications →
      Step f (.queryNotification i order) { f with
        inboxes := f.inboxes.set i ⟨inbox.currentUser,
          inbox.vc.delivered order notifications inbox.currentUser⟩ }
  | didSelectRow {i row : Nat} {inbox : Inbox} {notification : GNotification} :
      f.inboxes[i]? = some inbox → inbox.vc.notificationData[row]? = some notification →
      Step f (.didSelectRow i row) (f.write
        [.updateChildValues ["notification", notification.notificationID] [("isRead", .bool true)]])

theorem Step.of_step {f f' : Feed} {a : Action} (h : step ids f a = some f') :
    Step ids f a f' := by
  cases a with
  | base action =>
    simp only [step, Option.bind_eq_bind, Option.bind_eq_some_iff, Option.pure_def,
      Option.some.injEq] at h
    obtain ⟨world, hworld, rfl⟩ := h
    exact .base (World.Step.of_step ids hworld)
  | openComments screen =>
    simp only [step, Option.bind_eq_bind, Option.bind_eq_some_iff, Option.pure_def,
      Option.some.injEq] at h
    obtain ⟨vc, hvc, rfl⟩ := h
    exact .openComments hvc
  | table screen action =>
    simp only [step, Option.bind_eq_bind, Option.bind_eq_some_iff, Option.pure_def,
      Option.ite_none_right_eq_some, Option.some.injEq, Bool.and_eq_true] at h
    obtain ⟨s, hs, s', hstep, ⟨hdelivers, -⟩, rfl⟩ := h
    exact .table hs hstep hdelivers
  | inputPressed screen content timeZone now =>
    simp only [step, Option.bind_eq_bind, Option.bind_eq_some_iff, Option.pure_def,
      Option.some.injEq] at h
    obtain ⟨s, hs, currentUser, huser, rfl⟩ := h
    exact .inputPressed hs huser
  | senderFetched i =>
    simp only [step, Option.bind_eq_bind, Option.bind_eq_some_iff, Option.pure_def,
      Option.ite_none_left_eq_some, Option.some.injEq, Bool.not_eq_true] at h
    obtain ⟨input, hinput, hfetched, writes, hwrites, rfl⟩ := h
    exact .senderFetched hinput hfetched hwrites
  | openNotifications uid =>
    simp only [step, Option.ite_none_left_eq_some, Option.some.injEq] at h
    obtain ⟨huid, rfl⟩ := h
    exact .openNotifications huid
  | queryNotification i order =>
    simp only [step, Option.bind_eq_bind, Option.bind_eq_some_iff, Option.pure_def,
      Option.some.injEq] at h
    obtain ⟨inbox, hinbox, notifications, hread, rfl⟩ := h
    exact .queryNotification hinbox hread
  | didSelectRow i row =>
    simp only [step, NotificationVC.didSelectRowAt, Option.bind_eq_bind, Option.bind_eq_some_iff,
      Option.pure_def, Option.some.injEq] at h
    obtain ⟨inbox, hinbox, writes, ⟨notification, hrow, rfl⟩, rfl⟩ := h
    exact .didSelectRow hinbox hrow

end Feed

end GetTogether
