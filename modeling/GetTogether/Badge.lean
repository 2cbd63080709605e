import GetTogether.AppDelegate

/-! What the badge shows once every observer has been called on the current
notifications and every queued block has run: the count of the account whose block
assigned it last since the last logout. -/
namespace GetTogether.AppDelegate

open Realtime

/-- The account whose block last assigned the badge since the last logout. -/
def note (badgeOf : Option String) (app : AppDelegate) : Action → Option String
  | .didUserLogout => none
  | .runBlock => (app.queue.head?.map (·.currentUser)).or badgeOf
  | _ => badgeOf

/-- Whose the badge is, and what it shows, once the queued blocks have run. -/
def flushed (badgeOf : Option String) (app : AppDelegate) : Option String × Option String :=
  match app.queue.getLast? with
  | some block => (some block.currentUser, block.assigned)
  | none => (badgeOf, app.badgeValue)

theorem flushed_of_getLast? {badgeOf : Option String} {app : AppDelegate} {block : Block}
    (h : app.queue.getLast? = some block) :
    flushed badgeOf app = (some block.currentUser, badge block.unReads) := by
  unfold flushed
  rw [h, ← block.assigned_eq]

/-- The observers of the account have been called on the current notifications. -/
def UpToDate (app : AppDelegate) (uid : String) : Prop :=
  ∀ observer ∈ app.observers, observer.currentUser = uid → observer.isCurrent = true

structure Counted (app : AppDelegate) (uid : String) (shown : Option String) : Prop where
  observed : ∃ observer ∈ app.observers, observer.currentUser = uid
  notified : myNotification uid app.notifications ≠ []
  value : UpToDate app uid → shown = badge (unReads uid app.notifications)

structure Tracked (badgeOf : Option String) (app : AppDelegate) : Prop where
  owned : ∀ uid, (flushed badgeOf app).1 = some uid → Counted app uid (flushed badgeOf app).2
  unowned : (flushed badgeOf app).1 = none → (flushed badgeOf app).2 = none

section Step

variable {badgeOf : Option String} {app app' : AppDelegate} {action : Action}

theorem Tracked.of_flushed {badgeOf' : Option String} (htracked : Tracked badgeOf app)
    (hflushed : flushed badgeOf' app' = flushed badgeOf app)
    (hcounted : ∀ uid shown, Counted app uid shown → Counted app' uid shown) :
    Tracked badgeOf' app' := by
  constructor
  · rw [hflushed]
    exact fun uid huid => hcounted uid _ (htracked.owned uid huid)
  · rw [hflushed]
    exact htracked.unowned

theorem Tracked.queryNotificationCount (htracked : Tracked badgeOf app) :
    Tracked badgeOf app.queryNotificationCount := by
  unfold AppDelegate.queryNotificationCount
  cases app.currentUser with
  | none => exact htracked
  | some signedIn =>
    apply htracked.of_flushed
    · rfl
    · intro uid shown hcounted
      obtain ⟨observer, hmem, huid⟩ := hcounted.observed
      refine ⟨⟨observer, List.mem_append_left _ hmem, huid⟩, hcounted.notified, fun hcurrent => ?_⟩
      exact hcounted.value fun other hother => hcurrent other (List.mem_append_left _ hother)

/-- After a write to the notifications no observer of the badge's account is up to date. -/
theorem Tracked.changed (htracked : Tracked badgeOf app) {notifications : List GNotification}
    (hkept : ∀ uid, myNotification uid app.notifications ≠ [] →
      myNotification uid notifications ≠ []) :
    Tracked badgeOf (app.changed notifications) := by
  apply htracked.of_flushed
  · rfl
  · intro uid shown hcounted
    obtain ⟨observer, hmem, huid⟩ := hcounted.observed
    have hstale := List.mem_map_of_mem (f := fun o : Observer => { o with isCurrent := false }) hmem
    refine ⟨⟨_, hstale, huid⟩, hkept uid hcounted.notified, fun hcurrent => ?_⟩
    exact absurd (hcurrent _ hstale huid) (by simp)

theorem myNotification_append (uid : String) (notifications : List GNotification)
    (notification : GNotification) (h : myNotification uid notifications ≠ []) :
    myNotification uid (notifications ++ [notification]) ≠ [] := by
  unfold myNotification at *
  rw [List.filter_append]
  exact List.append_ne_nil_of_left_ne_nil h _

theorem myNotification_markRead (uid notificationID : String)
    (notifications : List GNotification) (h : myNotification uid notifications ≠ []) :
    myNotification uid (markRead notificationID notifications) ≠ [] := by
  unfold myNotification markRead at *
  intro hnone
  apply h
  rw [List.filter_eq_nil_iff] at hnone ⊢
  intro notification hmem
  have hmapped := hnone _ (List.mem_map_of_mem hmem)
  split at hmapped
  · exact hmapped
  · exact hmapped

theorem Tracked.didUserLogout (htracked : Tracked badgeOf app) :
    Tracked none { app with currentUser := none, badgeValue := none } := by
  cases hlast : app.queue.getLast? with
  | none => constructor <;> simp [flushed, hlast]
  | some block =>
    apply htracked.of_flushed
    · simp [flushed, hlast]
    · exact fun uid shown hcounted => ⟨hcounted.observed, hcounted.notified, hcounted.value⟩

theorem Tracked.runBlock (htracked : Tracked badgeOf app) {block : Block} {rest : List Block}
    (hqueue : app.queue = block :: rest) :
    Tracked (some block.currentUser)
      { app with queue := rest, badgeValue := block.assigned } := by
  apply htracked.of_flushed
  · unfold flushed
    rw [hqueue, List.getLast?_cons]
    cases rest.getLast? with
    | none => rfl
    | some last => rfl
  · exact fun uid shown hcounted => ⟨hcounted.observed, hcounted.notified, hcounted.value⟩

theorem mem_called {index : Nat} {called observer : Observer}
    (hcalled : app.observers[index]? = some called)
    (hother : called.currentUser ≠ observer.currentUser) :
    observer ∈ app.observers.set index { called with isCurrent := true } ↔
      observer ∈ app.observers := by
  simp only [List.mem_iff_getElem?]
  apply exists_congr
  intro place
  by_cases hplace : index = place
  · have hne : some called ≠ some observer := fun h => hother (Option.some.inj h ▸ rfl)
    have hlt : place < app.observers.length := by
      rw [← hplace]
      exact (List.getElem?_eq_some_iff.mp hcalled).1
    have hnew : { called with isCurrent := true } ≠ observer := fun h => hother (h ▸ rfl)
    rw [← hplace, hcalled, List.getElem?_set_self (hplace ▸ hlt)]
    simp [hnew, Option.some_inj.not.mp hne]
  · rw [List.getElem?_set_ne hplace]

theorem getLast?_callback {uid : String} {notifications : List GNotification}
    (h : myNotification uid notifications ≠ []) (queue : List Block) :
    (queue ++ callback uid notifications).getLast? =
      some ⟨uid, unReads uid notifications⟩ := by
  have hlast := List.getLast?_eq_some_getLast h
  unfold callback
  rw [List.getLast?_append, List.getLast?_map, hlast]
  rfl

/-- Calling an observer makes its account the last one, unless it has no notifications. -/
theorem Tracked.deliver (htracked : Tracked badgeOf app) {index : Nat} {called : Observer}
    (hcalled : app.observers[index]? = some called) :
    Tracked badgeOf { app with
      observers := app.observers.set index { called with isCurrent := true }
      queue := app.queue ++ callback called.currentUser app.notifications } := by
  have hindex : index < app.observers.length := (List.getElem?_eq_some_iff.mp hcalled).1
  by_cases hnone : myNotification called.currentUser app.notifications = []
  · apply htracked.of_flushed
    · simp [flushed, callback, hnone]
    · intro uid shown hcounted
      have hother : called.currentUser ≠ uid := fun h => hcounted.notified (h ▸ hnone)
      obtain ⟨observer, hmem, huid⟩ := hcounted.observed
      have hkept := (mem_called hcalled (huid ▸ hother)).mpr hmem
      refine ⟨⟨observer, hkept, huid⟩, hcounted.notified, fun hcurrent => ?_⟩
      apply hcounted.value
      intro other hmem' huid'
      exact hcurrent other ((mem_called hcalled (huid' ▸ hother)).mpr hmem') huid'
  · have hcalled' := List.mem_set hindex { called with isCurrent := true }
    have hlast := getLast?_callback hnone app.queue
    constructor
    · intro uid huid
      rw [flushed_of_getLast? hlast] at huid ⊢
      have hsame : called.currentUser = uid := Option.some.inj huid
      rw [← hsame]
      exact ⟨⟨_, hcalled', rfl⟩, hnone, fun _ => rfl⟩
    · rw [flushed_of_getLast? hlast]
      exact fun h => by simp at h

theorem Tracked.step (htracked : Tracked badgeOf app) (h : app.step action = some app') :
    Tracked (note badgeOf app action) app' := by
  cases action with
  | applicationDidBecomeActive | didUserLogin =>
    exact Option.some.inj h ▸ htracked.queryNotificationCount
  | signIn uid =>
    rw [← Option.some.inj h]
    exact htracked.of_flushed rfl fun _ _ hcounted =>
      ⟨hcounted.observed, hcounted.notified, hcounted.value⟩
  | didUserLogout => exact Option.some.inj h ▸ htracked.didUserLogout
  | notify notification =>
    exact Option.some.inj h ▸
      htracked.changed fun uid => myNotification_append uid app.notifications notification
  | didSelectRow notificationID =>
    exact Option.some.inj h ▸
      htracked.changed fun uid => myNotification_markRead uid notificationID app.notifications
  | deliver observer =>
    simp only [AppDelegate.step, Option.bind_eq_bind, Option.bind_eq_some_iff, Option.pure_def,
      Option.ite_none_left_eq_some, Option.some.injEq] at h
    obtain ⟨called, hcalled, -, rfl⟩ := h
    exact htracked.deliver hcalled
  | runBlock =>
    cases hqueue : app.queue with
    | nil => simp [AppDelegate.step, hqueue] at h
    | cons block rest =>
      simp only [AppDelegate.step, hqueue, Option.some.injEq] at h
      have howner : note badgeOf app .runBlock = some block.currentUser := by
        simp [note, hqueue]
      rw [← h, howner]
      exact htracked.runBlock hqueue

end Step

/-- The user is signed in with a query delivered, every observer has been called on the current
notifications and all it queued has run. -/
structure Settled (app : AppDelegate) (uid : String) : Prop where
  signedIn : app.currentUser = some uid
  observed : ∃ observer ∈ app.observers, observer.currentUser = uid
  current : ∀ observer ∈ app.observers, observer.isCurrent = true
  idle : app.queue = []

def unReadsOf (badgeOf : Option String) (app : AppDelegate) : Nat :=
  badgeOf.elim 0 fun uid => unReads uid app.notifications

theorem Tracked.badgeValue {badgeOf : Option String} {app : AppDelegate} {uid : String}
    (htracked : Tracked badgeOf app) (hsettled : Settled app uid) :
    app.badgeValue = badge (unReadsOf badgeOf app) := by
  have hflushed : flushed badgeOf app = (badgeOf, app.badgeValue) := by
    unfold flushed
    rw [hsettled.idle]
    rfl
  cases badgeOf with
  | none =>
    have hnone := htracked.unowned
    rw [hflushed] at hnone
    exact hnone rfl
  | some owner =>
    have hcounted := htracked.owned owner
    rw [hflushed] at hcounted
    exact (hcounted rfl).value fun observer hmem _ => hsettled.current observer hmem

/-- In every settled state the badge is right exactly when the account whose block assigned it
last since the last logout, if any, has as many unread notifications as the user. -/
theorem badge_right_iff {notifications : List GNotification} {badgeOf : Option String}
    {app : AppDelegate}
    (h : Reachable (logged step note) (none, { notifications := notifications }) (badgeOf, app))
    {uid : String} (hsettled : Settled app uid) :
    app.badgeValue = badge (unReads uid app.notifications) ↔
      unReadsOf badgeOf app = unReads uid app.notifications := by
  have htracked : Tracked badgeOf app := by
    refine h.invariant (fun s => Tracked s.1 s.2) ?_ ?_
    · constructor <;> simp [flushed]
    · intro s action s' hs hstep
      obtain ⟨next, hnext, rfl⟩ := logged_cases hstep
      exact hs.step hnext
  rw [htracked.badgeValue hsettled, badge_inj]

def invitation (notificationID uid : String) : GNotification where
  notificationID := notificationID
  userID := uid
  eventID := "k"
  message := "\"Carol\" 邀請您加入 「Party」"
  remark := ""
  isRead := false
  time := "2018-06-26 16:00:00"
  isRemoved := false

theorem badge_right_after_sign_in :
    ∃ badgeOf app, exec (logged step note) (none, { notifications := [invitation "n1" "bob"] })
        [.signIn "bob", .didUserLogin, .deliver 0, .runBlock] = some (badgeOf, app) ∧
      app.badgeValue = badge (unReads "bob" app.notifications) := by
  have hsettled : Settled ⟨[invitation "n1" "bob"], some "bob", [⟨"bob", true⟩], [], some "1"⟩
      "bob" := by
    constructor <;> simp
  refine ⟨some "bob", _, rfl, ?_⟩
  exact (@badge_right_iff [invitation "n1" "bob"] (some "bob") _
    ⟨[.signIn "bob", .didUserLogin, .deliver 0, .runBlock], rfl⟩ "bob" hsettled).mpr rfl

/-- Bob signs out and Alice signs in; a new notification for Bob sets her badge. -/
theorem badge_of_other_account :
    ¬ ∀ app, Reachable step {} app → ∀ uid, Settled app uid →
      app.badgeValue = badge (unReads uid app.notifications) := by
  intro h
  have hrun : Reachable step {}
      ⟨[invitation "n1" "bob"], some "alice", [⟨"bob", true⟩, ⟨"alice", true⟩], [], some "1"⟩ :=
    ⟨[.signIn "bob", .didUserLogin, .deliver 0, .didUserLogout, .signIn "alice", .didUserLogin,
      .notify (invitation "n1" "bob"), .deliver 0, .deliver 1, .runBlock], rfl⟩
  have hbadge := h _ hrun "alice" (by constructor <;> simp)
  exact absurd hbadge (by decide)

end GetTogether.AppDelegate
