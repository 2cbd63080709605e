import GetTogether.Feed.Subjects

/-! The notification table only grows. Whoever was told something finds it told the same
way ever after, and no reader of the table meets a record it cannot cast. -/
namespace GetTogether

open Realtime Roster

namespace Feed

/-- The notification is an earlier copy of a stored one of the account. -/
def Earlier (db : Store) (uid : String) (notification : GNotification) : Prop :=
  ∃ stored, GNotification.read db ["notification", notification.notificationID] = some stored ∧
    stored.userID = uid ∧ notification.Later stored

/-- The notifications of a reachable state, and the keys for those to come. -/
structure Told (ids : AutoId) (f : Feed) : Prop where
  complete : ∀ id, Noticed f.world.db id → ∃ notification,
    GNotification.read f.world.db ["notification", id] = some notification ∧
      notification.notificationID = id
  undrawn : ∀ n, f.world.drawn ≤ n → ¬Noticed f.world.db (ids.key n)
  held : ∀ holder key, f.held holder = some key →
    (∃ n < f.world.drawn, key = ids.key n) ∧ ¬Noticed f.world.db key
  distinct : ∀ holder holder' key, f.held holder = some key → f.held holder' = some key →
    holder = holder'
  content : ∀ vc ∈ f.world.contentVCs, ∀ notification, vc.notification = some notification →
    Earlier f.world.db vc.currentUser notification
  inboxes : ∀ inbox ∈ f.inboxes, ∀ notification ∈ inbox.vc.notificationData,
    Earlier f.world.db inbox.currentUser notification

variable {ids : AutoId} {f f' : Feed} {a : Action} {id : String}

theorem Earlier.noticed {db : Store} {uid : String} {notification : GNotification}
    (h : Earlier db uid notification) : Noticed db notification.notificationID := by
  obtain ⟨stored, hread, -, -⟩ := h
  exact .of_read hread

def Mine (f : Feed) (a : Action) (id : String) : Prop :=
  ∃ uid, f.author a = some uid ∧
    f.world.db.get ["notification", id, "userID"] = some (.string uid)

theorem Mine.noticed (h : Mine f a id) : Noticed f.world.db id := by
  obtain ⟨uid, -, hleaf⟩ := h
  exact (Store.contains_iff _ _).mpr ⟨["userID"], _, hleaf⟩

theorem Earlier.mine {uid : String} {notification : GNotification}
    (h : Earlier f.world.db uid notification) (huid : f.author a = some uid) :
    Mine f a notification.notificationID := by
  obtain ⟨stored, hread, rfl, -⟩ := h
  exact ⟨_, huid, (GNotification.read_eq_some.mp hread).2.1⟩

theorem Told.empty (ids : AutoId) : Told ids empty where
  complete id h := by simp [Noticed, Feed.empty, World.empty, Store.empty, Store.contains] at h
  undrawn n _ h := by simp [Noticed, Feed.empty, World.empty, Store.empty, Store.contains] at h
  held holder key h := by cases holder <;> simp [Feed.held, Feed.empty, World.empty] at h
  distinct holder holder' key h := by
    cases holder <;> simp [Feed.held, Feed.empty, World.empty] at h
  content vc hvc := absurd hvc List.not_mem_nil
  inboxes inbox hinbox := absurd hinbox List.not_mem_nil

/-- A screen that was opened from a notification was opened by its addressee. -/
theorem opened_notification {db : Store} {uid eventID : String} {notificationID : Option String}
    {vc : EventContentVC} (h : World.opened db uid eventID notificationID = some vc)
    {notification : GNotification} (hheld : vc.notification = some notification) :
    ∃ id, notificationID = some id ∧
      GNotification.read db ["notification", id] = some notification ∧
        notification.userID = vc.currentUser := by
  cases notificationID with
  | none =>
    simp only [World.opened, Option.bind_eq_bind, Option.bind_eq_some_iff, Option.pure_def,
      Option.ite_none_right_eq_some, Option.some.injEq] at h
    obtain ⟨event, -, -, rfl⟩ := h
    cases hheld
  | some notificationID =>
    simp only [World.opened, Option.bind_eq_bind, Option.bind_eq_some_iff, Option.pure_def,
      Option.ite_none_right_eq_some, Option.some.injEq] at h
    obtain ⟨event, -, stored, hread, huser, rfl⟩ := h
    obtain rfl := Option.some.inj hheld
    exact ⟨notificationID, rfl, hread, huser⟩

def takesUp : Action → Bool
  | .base (.openEvent _ _ (some _)) => true
  | .queryNotification _ _ => true
  | _ => false

section Shown

variable {P : String → GNotification → Prop}

theorem shown_content {w w' : World} {action : GetTogether.Action} (h : World.Step ids w action w')
    (hcontent : ∀ vc ∈ w.contentVCs, ∀ notification, vc.notification = some notification →
      P vc.currentUser notification)
    (hread : takesUp (.base action) = true → ∀ id notification, GNotification.read w.db
      ["notification", id] = some notification → P notification.userID notification) :
    ∀ vc ∈ w'.contentVCs, ∀ notification, vc.notification = some notification →
      P vc.currentUser notification := by
  have hset : ∀ {screen : Nat} {old new : EventContentVC}, w.contentVCs[screen]? = some old →
      new.currentUser = old.currentUser → new.notification = old.notification →
      ∀ vc ∈ w.contentVCs.set screen new, ∀ notification, vc.notification = some notification →
        P vc.currentUser notification := by
    intro screen old new hold huser hnotification vc hvc notification hheld
    rcases List.mem_or_eq_of_mem_set hvc with hvc | rfl
    · exact hcontent vc hvc notification hheld
    · rw [huser]
      exact hcontent old (List.mem_of_getElem? hold) notification (hnotification ▸ hheld)
  have hcall : ∀ {screen : Nat} {old new : EventContentVC}, w.contentVCs[screen]? = some old →
      old.Callback w.db new → ∀ vc ∈ w.contentVCs.set screen new, ∀ notification,
        vc.notification = some notification → P vc.currentUser notification :=
    fun hold hcall => hset hold hcall.currentUser_eq hcall.notification_eq
  cases h with
  | openEvent hopen _ =>
    intro vc hvc notification hheld
    rcases List.mem_append.mp hvc with hvc | hvc
    · exact hcontent vc hvc notification hheld
    · obtain rfl := List.mem_singleton.mp hvc
      obtain ⟨id, rfl, hid, huser⟩ := opened_notification hopen hheld
      exact huser ▸ hread rfl id notification hid
  | queryEventList hvc hload => exact hcall hvc (.eventList hload)
  | userFetched hvc hlist hload => exact hcall hvc (.user (List.mem_of_getElem? hlist) hload)
  | queryUserData hvc hload => exact hcall hvc (.users hload)
  | agree hvc _ => exact hset hvc rfl rfl
  | reject hvc _ _ => exact hcall hvc .rejected
  | _ => exact hcontent

/-- A notification on a screen was on it before, or has just been read for its account. -/
theorem Step.shown (h : Step ids f a f')
    (hcontent : ∀ vc ∈ f.world.contentVCs, ∀ notification, vc.notification = some notification →
      P vc.currentUser notification)
    (hinboxes : ∀ inbox ∈ f.inboxes, ∀ notification ∈ inbox.vc.notificationData,
      P inbox.currentUser notification)
    (hread : takesUp a = true → ∀ id notification, GNotification.read f.world.db
      ["notification", id] = some notification → P notification.userID notification) :
    (∀ vc ∈ f'.world.contentVCs, ∀ notification, vc.notification = some notification →
      P vc.currentUser notification) ∧
    ∀ inbox ∈ f'.inboxes, ∀ notification ∈ inbox.vc.notificationData,
      P inbox.currentUser notification := by
  constructor
  · by_cases hbase : ∃ action, a = .base action
    · obtain ⟨action, rfl⟩ := hbase
      cases h with
      | base h => exact shown_content h hcontent hread
    · rwa [h.contentVCs_eq fun action ha => hbase ⟨action, ha⟩]
  · cases h with
    | openNotifications huid =>
      intro inbox hinbox notification hrow
      rcases List.mem_append.mp hinbox with hinbox | hinbox
      · exact hinboxes inbox hinbox notification hrow
      · obtain rfl := List.mem_singleton.mp hinbox
        exact absurd hrow List.not_mem_nil
    | @queryNotification i order inbox notifications hinbox hdelivered =>
      intro other hother notification hrow
      rcases List.mem_or_eq_of_mem_set hother with hother | rfl
      · exact hinboxes other hother notification hrow
      · obtain ⟨hmem, huser⟩ := (inbox.vc.mem_notificationData).mp hrow
        obtain ⟨read, hcast, rfl⟩ := Option.map_eq_some_iff.mp hdelivered
        rw [List.mem_insertionSort] at hmem
        obtain ⟨id, -, hid⟩ := (mem_mapM_iff hcast notification).mp hmem
        exact huser ▸ hread rfl id notification hid
    | _ => exact hinboxes

end Shown

section Steps

variable (htold : Told ids f) (h : Step ids f a f')

include htold h

theorem Told.entries : ∀ write ∈ f.issued ids a, notificationLedger.Entry (Mine f a) write := by
  intro write hwrite
  refine (h.parts ?_ ?_ write hwrite).entry
  · exact fun vc hvc notification hheld => (htold.content vc hvc notification hheld).mine
  · exact fun inbox hinbox notification hrow => (htold.inboxes inbox hinbox notification hrow).mine

theorem Told.not_noticed {id : String} (hid : id ∈ notificationLedger.posted (f.issued ids a)) :
    ¬Noticed f.world.db id := by
  rcases h.posted_cases hid with ⟨-, n, hn, -, rfl⟩ | ⟨holder, -, hheld⟩
  · exact htold.undrawn n hn
  · exact (htold.held holder id hheld).2

theorem Told.kept {id : String} (hid : id ∉ notificationLedger.posted (f.issued ids a)) :
    notificationLedger.Kept f.world.db f'.world.db id := by
  rw [h.db_eq]
  exact Ledger.kept_applyAll (htold.entries h) (fun other hother => hother.noticed) hid

theorem Told.posted {id : String} (hid : id ∈ notificationLedger.posted (f.issued ids a)) :
    ∃ notification : GNotification, notification.notificationID = id ∧
      told notification ∈ f.issued ids a ∧ ∃ after,
        GNotification.read f'.world.db ["notification", id] = some after ∧
          notification.Later after := by
  have hnodup := h.posted_nodup fun holder key hheld => (htold.held holder key hheld).1
  obtain ⟨tree, htree, hmem, hkept⟩ :=
    Ledger.posted_applyAll (htold.entries h) (fun other hother => hother.noticed) hnodup hid
  rw [← h.db_eq] at hkept
  obtain ⟨notification, rfl, rfl, hread⟩ := read_of_posted htree hkept
  exact ⟨notification, rfl, hmem, hread⟩

theorem Told.read_later {id : String} {notification : GNotification}
    (hread : GNotification.read f.world.db ["notification", id] = some notification) :
    ∃ after, GNotification.read f'.world.db ["notification", id] = some after ∧
      notification.Later after := by
  apply read_of_kept (htold.kept h _) hread
  exact fun hid => htold.not_noticed h hid (.of_read hread)

theorem Told.earlier {uid : String} {notification : GNotification}
    (hearlier : Earlier f.world.db uid notification) : Earlier f'.world.db uid notification := by
  obtain ⟨stored, hread, huser, hlater⟩ := hearlier
  obtain ⟨after, hread', hlater'⟩ := htold.read_later h hread
  refine ⟨after, hread', ?_, hlater.trans hlater'⟩
  rw [hlater'.fields]
  exact huser

theorem Told.complete_step {id : String} (hid : Noticed f'.world.db id) : ∃ notification,
    GNotification.read f'.world.db ["notification", id] = some notification ∧
      notification.notificationID = id := by
  by_cases hposted : id ∈ notificationLedger.posted (f.issued ids a)
  · obtain ⟨notification, hkey, -, after, hread, hlater⟩ := htold.posted h hposted
    refine ⟨after, hread, ?_⟩
    rw [hlater.fields]
    exact hkey
  · have hbefore : Noticed f.world.db id := (htold.kept h hposted).contains.symm.trans hid
    obtain ⟨notification, hread, hkey⟩ := htold.complete id hbefore
    obtain ⟨after, hread', hlater⟩ := htold.read_later h hread
    refine ⟨after, hread', ?_⟩
    rw [hlater.fields]
    exact hkey

theorem Told.still_free {id : String} (hfree : ¬Noticed f.world.db id)
    (hid : id ∉ notificationLedger.posted (f.issued ids a)) : ¬Noticed f'.world.db id := by
  intro hnoticed
  exact hfree ((htold.kept h hid).contains.symm.trans hnoticed)

theorem Told.undrawn_step {n : Nat} (hn : f'.world.drawn ≤ n) : ¬Noticed f'.world.db (ids.key n) := by
  have hle := h.drawn_le
  apply htold.still_free h (htold.undrawn n (hle.trans hn))
  intro hid
  rcases h.posted_cases hid with ⟨-, m, -, hm, heq⟩ | ⟨holder, -, hheld⟩
  · have hsame := ids.injective heq
    omega
  · obtain ⟨⟨m, hm, heq⟩, -⟩ := htold.held holder _ hheld
    have hsame := ids.injective heq
    omega

theorem Told.held_step {holder : Holder} {key : String} (hheld : f'.held holder = some key) :
    (∃ n < f'.world.drawn, key = ids.key n) ∧ ¬Noticed f'.world.db key := by
  have hle := h.drawn_le
  rcases h.held_cases hheld with ⟨hold, hspends⟩ | ⟨rfl, hlt, hreceives⟩
  · obtain ⟨⟨n, hn, rfl⟩, hfree⟩ := htold.held holder key hold
    refine ⟨⟨n, by omega, rfl⟩, htold.still_free h hfree fun hid => ?_⟩
    rcases h.posted_cases hid with ⟨-, m, hm, -, heq⟩ | ⟨other, hother, hheld'⟩
    · have hsame := ids.injective heq
      omega
    · obtain rfl := htold.distinct holder other _ hold hheld'
      exact hspends hother
  · refine ⟨⟨f.world.drawn, hlt, rfl⟩, ?_⟩
    apply htold.still_free h (htold.undrawn _ (Nat.le_refl _))
    intro hid
    rcases h.posted_cases hid with ⟨hnone, -⟩ | ⟨other, -, hheld'⟩
    · exact absurd (hnone.symm.trans hreceives) nofun
    · obtain ⟨⟨m, hm, heq⟩, -⟩ := htold.held other _ hheld'
      have hsame := ids.injective heq
      omega

theorem Told.distinct_step {holder holder' : Holder} {key : String}
    (hheld : f'.held holder = some key) (hheld' : f'.held holder' = some key) :
    holder = holder' := by
  have hold : ∀ other, f.held other ≠ some (ids.key f.world.drawn) := by
    intro other hother
    obtain ⟨⟨m, hm, heq⟩, -⟩ := htold.held other _ hother
    have hsame := ids.injective heq
    omega
  rcases h.held_cases hheld with ⟨hbefore, -⟩ | ⟨rfl, -, hreceives⟩
  · rcases h.held_cases hheld' with ⟨hbefore', -⟩ | ⟨rfl, -, -⟩
    · exact htold.distinct holder holder' key hbefore hbefore'
    · exact absurd hbefore (hold holder)
  · rcases h.held_cases hheld' with ⟨hbefore', -⟩ | ⟨-, -, hreceives'⟩
    · exact absurd hbefore' (hold holder')
    · exact Option.some.inj (hreceives.symm.trans hreceives')

/-- A notification that is read is its own earliest copy. -/
theorem Told.earlier_of_read {id uid : String} {notification : GNotification}
    (hread : GNotification.read f.world.db ["notification", id] = some notification)
    (huser : notification.userID = uid) : Earlier f'.world.db uid notification := by
  obtain ⟨stored, hstored, hkey⟩ := htold.complete id (.of_read hread)
  obtain rfl : notification = stored := Option.some.inj (hread.symm.trans hstored)
  exact htold.earlier h ⟨notification, hkey ▸ hread, huser, .refl notification⟩

theorem Told.shown :
    (∀ vc ∈ f'.world.contentVCs, ∀ notification, vc.notification = some notification →
      Earlier f'.world.db vc.currentUser notification) ∧
    ∀ inbox ∈ f'.inboxes, ∀ notification ∈ inbox.vc.notificationData,
      Earlier f'.world.db inbox.currentUser notification := by
  apply h.shown
  · exact fun vc hvc notification hheld => htold.earlier h (htold.content vc hvc _ hheld)
  · exact fun inbox hinbox notification hrow => htold.earlier h (htold.inboxes inbox hinbox _ hrow)
  · exact fun _ id notification hread => htold.earlier_of_read h hread rfl

theorem Told.step : Told ids f' where
  complete _ := htold.complete_step h
  undrawn _ := htold.undrawn_step h
  held _ _ := htold.held_step h
  distinct _ _ _ := htold.distinct_step h
  content := (htold.shown h).1
  inboxes := (htold.shown h).2

end Steps

theorem told_reachable (h : Reachable (step ids) Feed.empty f) : Told ids f :=
  h.invariant (Told ids) (Told.empty ids) fun _ _ _ htold hstep =>
    htold.step (Step.of_step ids hstep)

theorem Told.readNotifications (htold : Told ids f) : ∃ notifications,
    NotificationVC.readNotifications f.world.db = some notifications ∧
      (notifications.map (·.notificationID)).Nodup ∧ ∀ notification, notification ∈ notifications ↔
        GNotification.read f.world.db ["notification", notification.notificationID] =
          some notification := by
  obtain ⟨read, hread, hnodup, hmem⟩ := f.world.db.readTable ["notification"]
    (fun id => GNotification.read f.world.db ["notification", id]) (·.notificationID)
    (fun id hid => htold.complete id ((Store.mem_children_iff_contains _ _ _).mp hid))
    (fun id notification hid => (Store.mem_children_iff_contains _ _ _).mpr (Noticed.of_read hid))
  refine ⟨_, by rw [NotificationVC.readNotifications, hread]; rfl, ?_, fun notification => ?_⟩
  · have hperm := (List.perm_insertionSort (fun a b : GNotification => a.time ≤ b.time) read).map
      (·.notificationID)
    rwa [hperm.nodup_iff]
  · rw [List.mem_insertionSort, hmem]

/-- Whatever is on the way, an account's list is never stopped by a record, and shows
exactly the notifications stored for the account, each in one row, latest first. -/
theorem inbox_rows (ids : AutoId) (f : Feed) (h : Reachable (step ids) Feed.empty f)
    (vc : NotificationVC) (order : NotificationVC.NewestFirst) (uid : String) :
    ∃ notifications, NotificationVC.readNotifications f.world.db = some notifications ∧
      ((vc.delivered order notifications uid).notificationData.map (·.notificationID)).Nodup ∧
      ((vc.delivered order notifications uid).notificationData.Pairwise
        fun a b => b.time ≤ a.time) ∧
      ∀ id, id ∈ (vc.delivered order notifications uid).notificationData.map (·.notificationID) ↔
        f.world.db.string? ["notification", id, "userID"] = some uid := by
  have htold := told_reachable h
  obtain ⟨notifications, hread, hnodup, hmem⟩ := htold.readNotifications
  refine ⟨notifications, hread, ?_, order.sorted _, fun id => ?_⟩
  · have hperm := (order.perm (NotificationVC.myNotification uid notifications)).map
      (·.notificationID)
    rw [NotificationVC.delivered, hperm.nodup_iff]
    exact hnodup.sublist (List.filter_sublist.map _)
  · rw [List.mem_map]
    constructor
    · intro hrow
      obtain ⟨notification, hrow, rfl⟩ := hrow
      obtain ⟨hstored, rfl⟩ := vc.mem_notificationData.mp hrow
      exact Store.string?_eq_some.mpr
        (GNotification.read_eq_some.mp ((hmem notification).mp hstored)).2.1
    · intro huser
      have hleaf := Store.string?_eq_some.mp huser
      have hnoticed : Noticed f.world.db id := by
        rw [Noticed, Store.contains_iff]
        exact ⟨["userID"], _, hleaf⟩
      obtain ⟨notification, hid, rfl⟩ := htold.complete id hnoticed
      refine ⟨notification, vc.mem_notificationData.mpr ⟨(hmem notification).mpr hid, ?_⟩, rfl⟩
      have hstored := (GNotification.read_eq_some.mp hid).2.1
      simpa using hstored.symm.trans hleaf

def invitation : List Action := World.creation.map .base

theorem inbox_rows_invitation : ∃ f notifications,
    exec (step .unary) Feed.empty invitation = some f ∧
      NotificationVC.readNotifications f.world.db = some notifications ∧
      "kk" ∈ (NotificationVC.delivered {} .stable notifications "bob").notificationData.map
        (·.notificationID) := by
  have hrun : ((exec (step .unary) Feed.empty invitation).any fun f =>
      f.world.db.string? ["notification", "kk", "userID"] = some "bob") = true := by decide
  obtain ⟨f, hf, huser⟩ := (Option.any_eq_true _ _).mp hrun
  obtain ⟨notifications, hread, -, -, hrows⟩ :=
    inbox_rows .unary f ⟨invitation, hf⟩ {} .stable "bob"
  exact ⟨f, notifications, hf, hread, (hrows "kk").mpr (of_decide_eq_true huser)⟩

theorem Told.read_reachable (htold : Told ids f) (hrest : Reachable (Feed.step ids) f f')
    {id : String} {notification : GNotification}
    (hread : GNotification.read f.world.db ["notification", id] = some notification) :
    ∃ after, GNotification.read f'.world.db ["notification", id] = some after ∧
      notification.Later after := by
  refine (hrest.invariant (fun f' => Told ids f' ∧ ∃ after,
    GNotification.read f'.world.db ["notification", id] = some after ∧ notification.Later after)
    ⟨htold, notification, hread, .refl notification⟩ ?_).2
  rintro s a s' ⟨htold, after, hafter, hlater⟩ hstep
  have hstep := Step.of_step ids hstep
  obtain ⟨next, hnext, hlater'⟩ := htold.read_later hstep hafter
  exact ⟨htold.step hstep, next, hnext, hlater.trans hlater'⟩

/-- A notification is never overwritten, taken back or told to someone else: whatever
happens later it has the same texts, stays read and removed once it is, and is on
every list of its addressee and on no other. -/
theorem told_for_good (ids : AutoId) (f f' : Feed) (h : Reachable (step ids) Feed.empty f)
    (hrest : Reachable (step ids) f f') (id : String) (notification : GNotification)
    (hread : GNotification.read f.world.db ["notification", id] = some notification) :
    ∃ after, GNotification.read f'.world.db ["notification", id] = some after ∧
      notification.Later after ∧
      ∃ notifications, NotificationVC.readNotifications f'.world.db = some notifications ∧
        ∀ (vc : NotificationVC) (order : NotificationVC.NewestFirst) (uid : String),
          after ∈ (vc.delivered order notifications uid).notificationData ↔
            uid = notification.userID := by
  obtain ⟨after, hafter, hlater⟩ := (told_reachable h).read_reachable hrest hread
  have htold := told_reachable (h.trans hrest)
  obtain ⟨notifications, hnotifications, -, hmem⟩ := htold.readNotifications
  refine ⟨after, hafter, hlater, notifications, hnotifications, fun vc order uid => ?_⟩
  obtain ⟨stored, hstored, hkey⟩ := htold.complete id (.of_read hafter)
  obtain rfl : after = stored := Option.some.inj (hafter.symm.trans hstored)
  have hin : after ∈ notifications := (hmem after).mpr (hkey ▸ hafter)
  have huser : after.userID = notification.userID := by rw [hlater.fields]
  rw [vc.mem_notificationData, huser]
  exact ⟨fun h => h.2.symm, fun h => ⟨hin, h.symm⟩⟩

def reading : List Action :=
  [.openNotifications "bob", .queryNotification 0 .stable, .didSelectRow 0 0]

theorem told_for_good_reading : ∃ f f' notification after,
    exec (step .unary) Feed.empty invitation = some f ∧ exec (step .unary) f reading = some f' ∧
      GNotification.read f.world.db ["notification", "kk"] = some notification ∧
      GNotification.read f'.world.db ["notification", "kk"] = some after ∧
      notification.Later after := by
  have hrun : ((exec (step .unary) Feed.empty invitation).any fun f =>
      (exec (step .unary) f reading).isSome &&
        (GNotification.read f.world.db ["notification", "kk"]).isSome) = true := by decide
  obtain ⟨f, hf, hrest⟩ := (Option.any_eq_true _ _).mp hrun
  rw [Bool.and_eq_true] at hrest
  obtain ⟨f', hf'⟩ := Option.isSome_iff_exists.mp hrest.1
  obtain ⟨notification, hread⟩ := Option.isSome_iff_exists.mp hrest.2
  obtain ⟨after, hafter, hlater, -⟩ :=
    told_for_good .unary f f' ⟨invitation, hf⟩ ⟨reading, hf'⟩ "kk" notification hread
  exact ⟨f, f', notification, after, hf, hf', hread, hafter, hlater⟩

end Feed

end GetTogether
