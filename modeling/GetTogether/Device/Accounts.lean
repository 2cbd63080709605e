import GetTogether.Device.Rules
import GetTogether.Realtime.Run

/-! Whose data the lists show after an account switch. Logging out empties them but
removes no observer, so an observer of an earlier account fills them again as soon as
anything changes. -/
namespace GetTogether.Device

open Realtime

section OnlyOwn

variable {α : Type} (owns : String → α → Prop)

/-- From its first snapshot on, all items belong to the account that is signed in; when
nobody is signed in there are none. -/
def OnlyOwn (currentUser : Option String) (first : Bool) (items : List α) : Prop :=
  (∀ uid, currentUser = some uid → first = true → ∀ item ∈ items, owns uid item) ∧
    (currentUser = none → items = [])

/-- An observer that takes what belongs to its account out of a snapshot leaves only own
items exactly when it finds none that the account signed in does not own too, or the
first snapshot of the latter is still to come. -/
theorem onlyOwn_delivered_iff {currentUser : Option String} {first : Bool} {uid : String}
    {items snapshot : List α} (hitems : ∀ item, item ∈ items ↔ item ∈ snapshot ∧ owns uid item) :
    OnlyOwn owns currentUser (first || some uid = currentUser) items ↔
      (currentUser ≠ some uid → currentUser = none ∨ first = true → ∀ item ∈ snapshot,
        owns uid item → ∃ own, currentUser = some own ∧ owns own item) := by
  cases currentUser with
  | none =>
    constructor
    · intro h _ _ item hitem howns
      have hmem := (hitems item).mpr ⟨hitem, howns⟩
      rw [h.2 rfl] at hmem
      exact absurd hmem List.not_mem_nil
    · intro h
      refine ⟨nofun, fun _ => List.eq_nil_iff_forall_not_mem.mpr fun item hitem => ?_⟩
      obtain ⟨hsnapshot, howns⟩ := (hitems item).mp hitem
      obtain ⟨own, hown, -⟩ := h nofun (.inl rfl) item hsnapshot howns
      cases hown
  | some own =>
    by_cases hsame : uid = own
    · subst hsame
      refine iff_of_true ⟨?_, nofun⟩ fun hne => absurd rfl hne
      intro uid' heq _ item hitem
      obtain rfl := Option.some.inj heq
      exact ((hitems item).mp hitem).2
    · have hne : some own ≠ some uid := fun heq => hsame (Option.some.inj heq).symm
      constructor
      · intro h _ hfirst item hitem howns
        have hfirst : first = true := hfirst.resolve_left nofun
        exact ⟨own, rfl, h.1 own rfl (by simp [hfirst]) item ((hitems item).mpr ⟨hitem, howns⟩)⟩
      · intro h
        refine ⟨?_, nofun⟩
        intro uid' heq hfirst item hitem
        obtain rfl := Option.some.inj heq
        have hfirst : first = true := by simpa [hsame] using hfirst
        obtain ⟨hsnapshot, howns⟩ := (hitems item).mp hitem
        obtain ⟨other, hother, howned⟩ := h hne (.inr hfirst) item hsnapshot howns
        exact Option.some.inj hother ▸ howned

end OnlyOwn

structure FirstSnapshots where
  main : Bool
  notification : Bool

def FirstSnapshots.note (log : FirstSnapshots) (s : Device) : Action → FirstSnapshots
  | .signIn _ => ⟨false, false⟩
  | .logout => ⟨false, false⟩
  | .mainDelivered observer =>
    { log with main := log.main || s.main.observers[observer]? = s.currentUser }
  | .notificationDelivered observer _ =>
    { log with
      notification := log.notification || s.notification.observers[observer]? = s.currentUser }
  | _ => log

structure OwnDataOnly (s : FirstSnapshots × Device) : Prop where
  host : OnlyOwn (fun uid event => event.organiserID = uid) s.2.currentUser s.1.main
    s.2.main.hostEventData
  joined : OnlyOwn (fun uid event => uid ∈ event.memberIDs) s.2.currentUser s.1.main
    s.2.main.joinedEventData
  notification : OnlyOwn (fun uid notification => notification.userID = uid) s.2.currentUser
    s.1.notification s.2.notification.notificationData

/-- An observer of another account is only called on a snapshot that holds nothing of
that account which the account signed in does not share, unless the first snapshot of
the latter is still to come. -/
def NothingStale (s : FirstSnapshots × Device) : Action → Prop
  | .mainDelivered observer => ∀ uid, s.2.main.observers[observer]? = some uid →
      s.2.currentUser ≠ some uid → s.2.currentUser = none ∨ s.1.main = true →
        ∀ events, MainVC.readEvents s.2.db = some events → ∀ event ∈ events,
          event.organiserID ≠ uid ∧
          (uid ∈ event.memberIDs → ∃ own, s.2.currentUser = some own ∧ own ∈ event.memberIDs)
  | .notificationDelivered observer _ => ∀ uid, s.2.notification.observers[observer]? = some uid →
      s.2.currentUser ≠ some uid → s.2.currentUser = none ∨ s.1.notification = true →
        ∀ notifications, NotificationVC.readNotifications s.2.db = some notifications →
          ∀ notification ∈ notifications, notification.userID ≠ uid
  | _ => True

/-- A tab that has not been loaded shows nothing. -/
structure Blank (s : Device) : Prop where
  main : s.main.isLoaded = false →
    s.main.observers = [] ∧ s.main.hostEventData = [] ∧ s.main.joinedEventData = []
  notification : s.notification.isLoaded = false →
    s.notification.observers = [] ∧ s.notification.notificationData = []

def Action.replacesLists : Action → Bool
  | .logout | .mainDelivered _ | .notificationDelivered _ _ => true
  | _ => false

variable {s s' : Device} {a : Action}

theorem Step.lists (h : Step s a s') (ha : a.replacesLists = false) :
    s'.main.hostEventData = s.main.hostEventData ∧
    s'.main.joinedEventData = s.main.joinedEventData ∧
    s'.notification.notificationData = s.notification.notificationData := by
  have hmain := s.main.queryIfSignedIn_same s.currentUser
  have hnotification := (s.notification.queryIfSignedIn_same s.currentUser).1
  cases h with
  | logout _ => cases ha
  | mainDelivered _ _ => cases ha
  | notificationDelivered _ _ => cases ha
  | login =>
    unfold Device.login
    refine ⟨?_, ?_, ?_⟩ <;> dsimp only <;> split
    · exact hmain.1
    · rfl
    · exact hmain.2
    · rfl
    · exact hnotification
    · rfl
  | mainDidLoad _ =>
    have hloaded := { s.main with isLoaded := true }.queryIfSignedIn_same s.currentUser
    exact ⟨hloaded.1, hloaded.2, rfl⟩
  | refreshMain _ => exact ⟨hmain.1, hmain.2, rfl⟩
  | notificationDidLoad _ =>
    have hloaded := { s.notification with isLoaded := true }.queryIfSignedIn_same s.currentUser
    exact ⟨rfl, rfl, hloaded.1⟩
  | refreshNotification _ => exact ⟨rfl, rfl, hnotification⟩
  | @eventFetched fetch eventID event _ _ => cases event <;> exact ⟨rfl, rfl, rfl⟩
  | cellForRow hcell => exact ⟨rfl, rfl, (NotificationVC.cellForRowAt_eq_some hcell).1⟩
  | @selectRow row _ =>
    obtain ⟨db, stopped, heq⟩ := s.selectRow_eq row
    rw [heq]
    exact ⟨rfl, rfl, rfl⟩
  | _ => exact ⟨rfl, rfl, rfl⟩

theorem Step.main_loaded (hblank : Blank s) (h : Step s a s') :
    s'.main.isLoaded = true ∨ s'.main = s.main := by
  have hframe := h.frame
  cases h with
  | login =>
    cases hloaded : s.main.isLoaded
    · exact .inr (by simp [Device.login, hloaded])
    · exact .inl (by simp [Device.login, hloaded, MainVC.didUserLogin, MainVC.queryIfSignedIn_isLoaded])
  | logout _ =>
    cases hloaded : s.main.isLoaded
    · exact .inr (by simp [Device.logout, hloaded])
    · exact .inl (by simp [Device.logout, hloaded, MainVC.didUserLogout])
  | mainDidLoad _ => exact .inl (MainVC.queryIfSignedIn_isLoaded _ _)
  | refreshMain hloaded => exact .inl ((MainVC.queryIfSignedIn_isLoaded _ _).trans hloaded)
  | mainDelivered hobserver _ =>
    cases hloaded : s.main.isLoaded
    · simp [(hblank.main hloaded).1] at hobserver
    · exact .inl hloaded
  | _ => exact .inr (hframe.main rfl)

theorem Step.notification_loaded (hblank : Blank s) (h : Step s a s') :
    s'.notification.isLoaded = true ∨ s'.notification.isLoaded = s.notification.isLoaded ∧
      s'.notification.observers = s.notification.observers ∧
      s'.notification.notificationData = s.notification.notificationData := by
  have hframe := h.frame
  cases h with
  | login =>
    cases hloaded : s.notification.isLoaded
    · exact .inr (by simp [Device.login, hloaded])
    · exact .inl (by simp [Device.login, hloaded, NotificationVC.didUserLogin,
        NotificationVC.queryIfSignedIn_isLoaded])
  | logout _ =>
    cases hloaded : s.notification.isLoaded
    · exact .inr (by simp [Device.logout, hloaded])
    · exact .inl (by simp [Device.logout, hloaded, NotificationVC.didUserLogout,
        NotificationVC.reloadData])
  | notificationDidLoad _ => exact .inl (NotificationVC.queryIfSignedIn_isLoaded _ _)
  | refreshNotification hloaded =>
    exact .inl ((NotificationVC.queryIfSignedIn_isLoaded _ _).trans hloaded)
  | notificationDelivered hobserver _ =>
    cases hloaded : s.notification.isLoaded
    · simp [(hblank.notification hloaded).1] at hobserver
    · exact .inl hloaded
  | @eventFetched fetch eventID event _ _ => cases event <;> exact .inr ⟨rfl, rfl, rfl⟩
  | reloadData _ => exact .inr ⟨rfl, rfl, rfl⟩
  | cellForRow hcell =>
    simp only [NotificationVC.cellForRowAt, Option.bind_eq_bind, Option.bind_eq_some_iff,
      Option.ite_none_right_eq_some, Option.pure_def, Option.some.injEq] at hcell
    obtain ⟨made, -, -, rfl⟩ := hcell
    exact .inr ⟨rfl, rfl, rfl⟩
  | _ =>
    rw [hframe.notification rfl]
    exact .inr ⟨rfl, rfl, rfl⟩

theorem Blank.step (hblank : Blank s) (h : Step s a s') : Blank s' := by
  constructor
  · intro hloaded
    rcases h.main_loaded hblank with hloaded' | hsame
    · exact absurd (hloaded.symm.trans hloaded') nofun
    · rw [hsame] at hloaded ⊢
      exact hblank.main hloaded
  · intro hloaded
    rcases h.notification_loaded hblank with hloaded' | ⟨hsame, hobservers, hdata⟩
    · exact absurd (hloaded.symm.trans hloaded') nofun
    · rw [hobservers, hdata]
      exact hblank.notification (hsame ▸ hloaded)

theorem Blank.empty : Blank Device.empty where
  main _ := ⟨rfl, rfl, rfl⟩
  notification _ := ⟨rfl, rfl⟩

variable {t t' : FirstSnapshots × Device}

theorem OwnDataOnly.empty : OwnDataOnly (⟨false, false⟩, Device.empty) where
  host := ⟨nofun, fun _ => rfl⟩
  joined := ⟨nofun, fun _ => rfl⟩
  notification := ⟨nofun, fun _ => rfl⟩

theorem OwnDataOnly.of_same (h : OwnDataOnly t) (hlog : t'.1 = t.1)
    (huser : t'.2.currentUser = t.2.currentUser)
    (hlists : t'.2.main.hostEventData = t.2.main.hostEventData ∧
      t'.2.main.joinedEventData = t.2.main.joinedEventData ∧
      t'.2.notification.notificationData = t.2.notification.notificationData) :
    OwnDataOnly t' := by
  obtain ⟨hhost, hjoined, hnotification⟩ := hlists
  constructor
  · rw [hlog, huser, hhost]
    exact h.host
  · rw [hlog, huser, hjoined]
    exact h.joined
  · rw [hlog, huser, hnotification]
    exact h.notification

theorem OwnDataOnly.signIn (s : Device) (uid : String) :
    OwnDataOnly (⟨false, false⟩, { s with currentUser := some uid }) := by
  constructor <;> exact ⟨by simp, by simp⟩

theorem OwnDataOnly.logout (hblank : Blank t.2) :
    OwnDataOnly (⟨false, false⟩, t.2.logout) := by
  have hmain : t.2.logout.main.hostEventData = [] ∧ t.2.logout.main.joinedEventData = [] := by
    cases hloaded : t.2.main.isLoaded
    · simpa [Device.logout, hloaded] using (hblank.main hloaded).2
    · simp [Device.logout, hloaded, MainVC.didUserLogout]
  have hnotification : t.2.logout.notification.notificationData = [] := by
    cases hloaded : t.2.notification.isLoaded
    · simpa [Device.logout, hloaded] using (hblank.notification hloaded).2
    · simp [Device.logout, hloaded, NotificationVC.didUserLogout, NotificationVC.reloadData]
  constructor
  · exact ⟨by simp, fun _ => hmain.1⟩
  · exact ⟨by simp, fun _ => hmain.2⟩
  · exact ⟨by simp, fun _ => hnotification⟩

theorem OwnDataOnly.mainDelivered_iff (h : OwnDataOnly t) {observer : Nat} {uid : String}
    {events : List Event} (hobserver : t.2.main.observers[observer]? = some uid)
    (hevents : MainVC.readEvents t.2.db = some events) :
    OwnDataOnly (t.1.note t.2 (.mainDelivered observer),
        { t.2 with main := t.2.main.delivered events uid }) ↔
      NothingStale t (.mainDelivered observer) := by
  have hlog : t.1.note t.2 (.mainDelivered observer) =
      { t.1 with main := t.1.main || decide (some uid = t.2.currentUser) } := by
    simp only [FirstSnapshots.note, hobserver]
  have hboth : OwnDataOnly (t.1.note t.2 (.mainDelivered observer),
        { t.2 with main := t.2.main.delivered events uid }) ↔
      OnlyOwn (fun uid event => event.organiserID = uid) t.2.currentUser
        (t.1.main || decide (some uid = t.2.currentUser))
        (t.2.main.delivered events uid).hostEventData ∧
      OnlyOwn (fun uid event => uid ∈ event.memberIDs) t.2.currentUser
        (t.1.main || decide (some uid = t.2.currentUser))
        (t.2.main.delivered events uid).joinedEventData := by
    rw [hlog]
    constructor
    · exact fun h' => ⟨h'.host, h'.joined⟩
    · exact fun hlists => ⟨hlists.1, hlists.2, h.notification⟩
  rw [hboth, onlyOwn_delivered_iff _ fun event => t.2.main.mem_hostEventData,
    onlyOwn_delivered_iff _ fun event => t.2.main.mem_joinedEventData]
  constructor
  · rintro ⟨hhosts, hjoins⟩ uid' hobserver' hne hstale events' hevents' event hmem
    obtain rfl := Option.some.inj (hobserver.symm.trans hobserver')
    obtain rfl := Option.some.inj (hevents.symm.trans hevents')
    refine ⟨fun horganiser => ?_, hjoins hne hstale event hmem⟩
    obtain ⟨own, hown, heq⟩ := hhosts hne hstale event hmem horganiser
    exact hne (hown.trans (congrArg some (heq.symm.trans horganiser)))
  · intro hnothing
    constructor
    · intro hne hstale event hmem horganiser
      exact absurd horganiser (hnothing uid hobserver hne hstale events hevents event hmem).1
    · intro hne hstale event hmem
      exact (hnothing uid hobserver hne hstale events hevents event hmem).2

theorem OwnDataOnly.notificationDelivered_iff (h : OwnDataOnly t) {observer : Nat}
    {order : NotificationVC.NewestFirst} {uid : String} {notifications : List GNotification}
    (hobserver : t.2.notification.observers[observer]? = some uid)
    (hnotifications : NotificationVC.readNotifications t.2.db = some notifications) :
    OwnDataOnly (t.1.note t.2 (.notificationDelivered observer order),
        { t.2 with notification := t.2.notification.delivered order notifications uid }) ↔
      NothingStale t (.notificationDelivered observer order) := by
  have hlog : t.1.note t.2 (.notificationDelivered observer order) =
      { t.1 with notification := t.1.notification || decide (some uid = t.2.currentUser) } := by
    simp only [FirstSnapshots.note, hobserver]
  have hone : OwnDataOnly (t.1.note t.2 (.notificationDelivered observer order),
        { t.2 with notification := t.2.notification.delivered order notifications uid }) ↔
      OnlyOwn (fun uid notification => notification.userID = uid) t.2.currentUser
        (t.1.notification || decide (some uid = t.2.currentUser))
        (t.2.notification.delivered order notifications uid).notificationData := by
    rw [hlog]
    constructor
    · exact fun h' => h'.notification
    · exact fun hlist => ⟨h.host, h.joined, hlist⟩
  rw [hone, onlyOwn_delivered_iff _ fun notification => t.2.notification.mem_notificationData]
  constructor
  · intro hown uid' hobserver' hne hstale notifications' hnotifications' notification hmem hmine
    obtain rfl := Option.some.inj (hobserver.symm.trans hobserver')
    obtain rfl := Option.some.inj (hnotifications.symm.trans hnotifications')
    obtain ⟨own, huser, heq⟩ := hown hne hstale notification hmem hmine
    exact hne (huser.trans (congrArg some (heq.symm.trans hmine)))
  · intro hnothing hne hstale notification hmem hmine
    exact absurd hmine
      (hnothing uid hobserver hne hstale notifications hnotifications notification hmem)

theorem ownDataOnly_step_iff (hblank : Blank t.2) (h : OwnDataOnly t) {s' : Device}
    (hstep : Step t.2 a s') : OwnDataOnly (t.1.note t.2 a, s') ↔ NothingStale t a := by
  have hframe := hstep.frame
  have hlists := hstep.lists
  cases hstep with
  | signIn _ => exact iff_of_true (.signIn t.2 _) trivial
  | logout _ => exact iff_of_true (.logout hblank) trivial
  | mainDelivered hobserver hevents => exact h.mainDelivered_iff hobserver hevents
  | notificationDelivered hobserver hnotifications =>
    exact h.notificationDelivered_iff hobserver hnotifications
  | _ => exact iff_of_true (h.of_same rfl (hframe.currentUser rfl) (hlists rfl)) trivial

/-- In every state of a run only data of the account signed in is shown, exactly when no
observer of another account is called on something of its own in the run. -/
theorem own_data_only_iff (actions : List Action) :
    Always (logged step FirstSnapshots.note) OwnDataOnly (⟨false, false⟩, empty) actions ↔
      EachStep (logged step FirstSnapshots.note) NothingStale (⟨false, false⟩, empty) actions := by
  apply always_iff_eachStep fun t => Blank t.2
  · intro t a t' hblank h hstep
    obtain ⟨device, hrun, rfl⟩ := logged_cases hstep
    exact ownDataOnly_step_iff hblank h (.of_step hrun)
  · intro t a t' hblank _ _ hstep
    exact hblank.step (.of_step (logged_eq_some.mp hstep).1)
  · exact Blank.empty
  · exact OwnDataOnly.empty

def loggedOut : List Action :=
  [.write (.setValue ["event", "k"] (Event.uploadedEventData
      ⟨"k", "alice", "Party", [""], "2018-12-24 18:00", "Taipei", "Dinner", "party.jpg"⟩)),
    .signIn "alice", .mainDidLoad, .mainDelivered 0, .logout]

/-- Her observer is called again: her event is listed while nobody is signed in, and on
Bob's screen when he has had his first snapshot. -/
theorem stale_observer_shows :
    (∃ t, exec (logged step FirstSnapshots.note) (⟨false, false⟩, empty)
        (loggedOut ++ [.mainDelivered 0]) = some t ∧
      t.2.currentUser = none ∧ t.2.main.hostEventData ≠ [] ∧ ¬OwnDataOnly t) ∧
    ∃ t, exec (logged step FirstSnapshots.note) (⟨false, false⟩, empty)
        (loggedOut ++ [.signIn "bob", .login, .mainDelivered 1, .mainDelivered 0]) = some t ∧
      t.2.currentUser = some "bob" ∧ t.1.main = true ∧
      t.2.main.hostEventData.map (·.organiserID) = ["alice"] ∧ ¬OwnDataOnly t := by
  have hnobody : ((exec (logged step FirstSnapshots.note) (⟨false, false⟩, empty)
      (loggedOut ++ [.mainDelivered 0])).any fun t =>
        t.2.currentUser = none ∧ t.2.main.hostEventData ≠ []) = true := by decide
  have hbob : ((exec (logged step FirstSnapshots.note) (⟨false, false⟩, empty)
      (loggedOut ++ [.signIn "bob", .login, .mainDelivered 1, .mainDelivered 0])).any fun t =>
        t.2.currentUser = some "bob" ∧ t.1.main = true ∧
          t.2.main.hostEventData.map (·.organiserID) = ["alice"]) = true := by decide
  constructor
  · obtain ⟨t, ht, h⟩ := (Option.any_eq_true _ _).mp hnobody
    obtain ⟨huser, hlist⟩ := of_decide_eq_true h
    exact ⟨t, ht, huser, hlist, fun howned => hlist (howned.host.2 huser)⟩
  · obtain ⟨t, ht, h⟩ := (Option.any_eq_true _ _).mp hbob
    obtain ⟨huser, hfirst, hlist⟩ := of_decide_eq_true h
    refine ⟨t, ht, huser, hfirst, hlist, fun howned => ?_⟩
    obtain ⟨event, hevent, horganiser⟩ : ∃ event ∈ t.2.main.hostEventData,
        event.organiserID = "alice" := by
      rw [← List.mem_map, hlist]
      exact List.mem_singleton_self _
    have hown := howned.host.1 "bob" huser hfirst event hevent
    exact absurd (horganiser.symm.trans hown) (by decide)

end GetTogether.Device
