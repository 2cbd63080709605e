import GetTogether.DataModels
import GetTogether.Realtime.Run

/-! The badge of the notification tab. Every activation and every login adds an
observer for the account signed in, and none is ever removed. A call of an observer
queues one block for each notification of its account; each block assigns the number
of unread ones, which the loop has finished counting by then. -/
namespace GetTogether

structure AppDelegate.Observer where
  currentUser : String
  /-- Whether it has been called since the notifications last changed. -/
  isCurrent : Bool
  deriving DecidableEq, Repr

structure AppDelegate.Block where
  currentUser : String
  unReads : Nat
  deriving DecidableEq, Repr

structure AppDelegate where
  notifications : List GNotification := []
  currentUser : Option String := none
  observers : List AppDelegate.Observer := []
  queue : List AppDelegate.Block := []
  badgeValue : Option String := none
  deriving DecidableEq, Repr

namespace AppDelegate

inductive Action where
  | applicationDidBecomeActive
  | signIn (uid : String)
  /-- The login is posted and the main screen hears of it. -/
  | didUserLogin
  /-- The sign-out, and the profile screen that hears of it. -/
  | didUserLogout
  | notify (notification : GNotification)
  | didSelectRow (notificationID : String)
  | deliver (observer : Nat)
  | runBlock
  deriving DecidableEq, Repr

def myNotification (uid : String) (notifications : List GNotification) : List GNotification :=
  notifications.filter (·.userID = uid)

def unReads (uid : String) (notifications : List GNotification) : Nat :=
  ((myNotification uid notifications).filter (!·.isRead)).length

/-- The callback of `queryNotificationCount` for the account it was installed for. -/
def callback (currentUser : String) (notifications : List GNotification) : List Block :=
  (myNotification currentUser notifications).map fun _ =>
    ⟨currentUser, unReads currentUser notifications⟩

def Block.assigned (block : Block) : Option String :=
  let badgeValue := some (toString block.unReads)
  if badgeValue = some "0" then none else badgeValue

def queryNotificationCount (app : AppDelegate) : AppDelegate :=
  match app.currentUser with
  | some uid => { app with observers := app.observers ++ [⟨uid, false⟩] }
  | none => app

/-- A write to the notifications: every observer is to be called again. -/
def changed (app : AppDelegate) (notifications : List GNotification) : AppDelegate :=
  { app with
    notifications
    observers := app.observers.map fun observer => { observer with isCurrent := false } }

def markRead (notificationID : String) (notifications : List GNotification) :
    List GNotification :=
  notifications.map fun notification =>
    if notification.notificationID = notificationID then { notification with isRead := true }
    else notification

def step (app : AppDelegate) : Action → Option AppDelegate
  | .applicationDidBecomeActive => some app.queryNotificationCount
  | .signIn uid => some { app with currentUser := some uid }
  | .didUserLogin => some app.queryNotificationCount
  | .didUserLogout => some { app with currentUser := none, badgeValue := none }
  | .notify notification => some (app.changed (app.notifications ++ [notification]))
  | .didSelectRow notificationID =>
    some (app.changed (markRead notificationID app.notifications))
  | .deliver observer => do
    let called ← app.observers[observer]?
    if called.isCurrent then none
    else return { app with
      observers := app.observers.set observer { called with isCurrent := true }
      queue := app.queue ++ callback called.currentUser app.notifications }
  | .runBlock =>
    match app.queue with
    | [] => none
    | block :: rest => some { app with queue := rest, badgeValue := block.assigned }

def badge (unReads : Nat) : Option String := if unReads = 0 then none else some (toString unReads)

theorem toString_inj {m n : Nat} : toString m = toString n ↔ m = n := by
  constructor
  · intro h
    have hdigits : Nat.toDigits 10 m = Nat.toDigits 10 n := by
      simpa only [Nat.toString_eq_repr, Nat.toList_repr] using congrArg String.toList h
    have hvalue := congrArg (Nat.ofDigitChars 10 · 0) hdigits
    simpa only [Nat.ofDigitChars_ten_toDigits] using hvalue
  · exact congrArg _

theorem Block.assigned_eq (block : Block) : block.assigned = badge block.unReads := by
  have hzero : toString block.unReads = "0" ↔ block.unReads = 0 := @toString_inj block.unReads 0
  unfold Block.assigned badge
  simp only [Option.some.injEq, hzero]

theorem badge_inj {m n : Nat} : badge m = badge n ↔ m = n := by
  unfold badge
  by_cases hm : m = 0
  · by_cases hn : n = 0
    · simp [hm, hn]
    · simp [hm, hn, eq_comm]
  · by_cases hn : n = 0
    · simp [hm, hn]
    · rw [if_neg hm, if_neg hn, Option.some.injEq, toString_inj]

end AppDelegate

end GetTogether
