import GetTogether.Feed.Listings
import GetTogether.World.Mirror

/-! No dead ends. Whatever everybody has done, an account can still answer an invitation
from its own list and leave an event it has joined, by actions of its own alone. -/
namespace GetTogether

open Realtime Roster

namespace World

variable (ids : AutoId) {w w' : World}

theorem Same.mirror (hsame : Same w w') (h : Mirror w) : Mirror w' := by
  have htables := hsame.tables_eq
  refine ⟨htables ▸ h.mirrored, fun uid eventID hpending => ?_⟩
  rw [htables] at hpending
  exact hsame.registered (h.registered uid eventID hpending)

theorem Same.readEventLists (hsame : Same w w') (uid : String) :
    EventContentVC.readEventLists w'.db uid = EventContentVC.readEventLists w.db uid := by
  have hget := hsame.get "invitingEventList" (by simp)
  have hchildren : w'.db.children ["invitingEventList", uid] =
      w.db.children ["invitingEventList", uid] :=
    Store.children_of_get_eq fun rest => hget (uid :: rest)
  have hread : ∀ eventID, EventList.read w'.db ["invitingEventList", uid, eventID] =
      EventList.read w.db ["invitingEventList", uid, eventID] := by
    intro eventID
    simp only [EventList.read, List.cons_append, Store.string?, Store.bool?, hget]
  simp only [EventContentVC.readEventLists, hchildren, hread]

theorem can_open {uid eventID : String} {notificationID : Option String} {vc : EventContentVC}
    (hopen : opened w.db uid eventID notificationID = some vc) (huid : uid ≠ "") :
    ∃ w', step ids w (.openEvent uid eventID notificationID) = some w' ∧ w'.db = w.db ∧
      w'.contentVCs[w.contentVCs.length]? = some vc := by
  refine ⟨{ w with contentVCs := w.contentVCs ++ [vc] }, ?_, rfl, by simp⟩
  simp [step, hopen, huid]

section Screen

variable {screen : Nat} {vc vc' : EventContentVC} (hvc : w.contentVCs[screen]? = some vc)

include hvc

theorem getElem?_setContent (vc' : EventContentVC) :
    (w.setContent screen vc').contentVCs[screen]? = some vc' := by
  have hlt := (List.getElem?_eq_some_iff.mp hvc).1
  simp [setContent, hlt]

theorem can_queryEventList (hload : vc.queryEventList w.db = some vc') :
    ∃ w', step ids w (.queryEventList screen) = some w' ∧ w'.db = w.db ∧
      w'.contentVCs[screen]? = some vc' :=
  ⟨w.setContent screen vc', by simp [step, hvc, hload], rfl, getElem?_setContent hvc vc'⟩

theorem can_userFetched {fetch : Nat} {eventList : EventList} {time : String}
    (hfetch : vc.userFetches[fetch]? = some eventList)
    (hload : vc.userFetched w.db eventList time (ids.key w.drawn) = some vc') :
    ∃ w', step ids w (.userFetched screen fetch time) = some w' ∧ w'.db = w.db ∧
      w'.contentVCs[screen]? = some vc' :=
  ⟨(w.setContent screen vc').draw 1, by simp [step, hvc, hfetch, hload], rfl,
    getElem?_setContent hvc vc'⟩

end Screen

end World

namespace Feed

variable {ids : AutoId} {f f' f'' : Feed} {a : Action} {uid : String}

/-- A run of actions of one account. -/
def Alone (ids : AutoId) (uid : String) (f f' : Feed) : Prop :=
  ∃ actions, EachStep (step ids) (fun f a => f.author a = some uid) f actions ∧
    exec (step ids) f actions = some f'

theorem Alone.refl (f : Feed) : Alone ids uid f f := ⟨[], trivial, rfl⟩

theorem Alone.cons (hstep : step ids f a = some f') (hauthor : f.author a = some uid)
    (h : Alone ids uid f' f'') : Alone ids uid f f'' := by
  obtain ⟨actions, heach, hrun⟩ := h
  refine ⟨a :: actions, fun next hnext => ?_, ?_⟩
  · obtain rfl : f' = next := Option.some.inj (hstep.symm.trans hnext)
    exact ⟨hauthor, heach⟩
  · rw [exec, hstep]
    exact hrun

theorem Alone.trans (h : Alone ids uid f f') (h' : Alone ids uid f' f'') : Alone ids uid f f'' := by
  obtain ⟨actions, heach, hrun⟩ := h
  induction actions generalizing f with
  | nil =>
    obtain rfl := Option.some.inj hrun
    exact h'
  | cons a rest ih =>
    obtain ⟨next, hstep, hrest⟩ := Option.bind_eq_some_iff.mp hrun
    obtain ⟨hauthor, heach⟩ := heach next hstep
    exact .cons hstep hauthor (ih heach hrest)

theorem Alone.reachable (h : Alone ids uid f f') : Reachable (step ids) f f' := by
  obtain ⟨actions, -, hrun⟩ := h
  exact ⟨actions, hrun⟩

theorem Alone.base {action : GetTogether.Action} {world : World}
    (hstep : World.step ids f.world action = some world)
    (hauthor : f.world.author action = some uid) : Alone ids uid f { f with world } := by
  have hfeed : step ids f (.base action) = some { f with world } := by simp [step, hstep]
  exact .cons hfeed hauthor (.refl _)

theorem mirror_reachable (h : Reachable (step ids) empty f) : World.Mirror f.world.bare := by
  refine (h.invariant (fun f => World.Lawful ids f.world.bare ∧ World.Mirror f.world.bare)
    ⟨World.Lawful.empty ids, World.Mirror.empty⟩ ?_).2
  intro s a s' ⟨hlaw, hmir⟩ hstep
  have h := Step.of_step ids hstep
  refine ⟨h.lawful hlaw, ?_⟩
  by_cases hbase : ∃ action, a = .base action
  · obtain ⟨action, rfl⟩ := hbase
    cases h with
    | base h => exact hmir.step hlaw.accounts h.bare
  · have hbase : ∀ action, a ≠ .base action := fun action ha => hbase ⟨action, ha⟩
    obtain ⟨count, heq⟩ := h.world_eq hbase
    rw [heq]
    exact (same_of_aside (h.issued_aside hbase) count).mirror hmir

section Answer

variable {id : String} {notification : GNotification}

theorem can_tap (h : Reachable (step ids) empty f)
    (hread : GNotification.read f.world.db ["notification", id] = some notification)
    (huid : notification.userID ≠ "") :
    ∃ f' after, Alone ids notification.userID f f' ∧ World.Same f.world f'.world ∧
      GNotification.read f'.world.db ["notification", id] = some after ∧ notification.Later after := by
  obtain ⟨notifications, hlist, hrows⟩ :
      ∃ notifications, NotificationVC.readNotifications f.world.db = some notifications ∧
        notification ∈ (NotificationVC.delivered {} .stable notifications
          notification.userID).notificationData := by
    obtain ⟨notifications, hlist, -, hmem⟩ := (told_reachable h).readNotifications
    obtain ⟨stored, hstored, hkey⟩ := (told_reachable h).complete id (.of_read hread)
    obtain rfl : notification = stored := Option.some.inj (hread.symm.trans hstored)
    refine ⟨notifications, hlist, ?_⟩
    rw [NotificationVC.mem_notificationData]
    exact ⟨(hmem notification).mpr (hkey ▸ hread), rfl⟩
  obtain ⟨row, hrow⟩ := List.mem_iff_getElem?.mp hrows
  have hopened : step ids f (.openNotifications notification.userID) =
      some { f with inboxes := f.inboxes ++ [⟨notification.userID, {}⟩] } := by simp [step, huid]
  obtain ⟨f₁, hf₁⟩ : ∃ f₁ : Feed,
      f₁ = { f with inboxes := f.inboxes ++ [⟨notification.userID, {}⟩] } := ⟨_, rfl⟩
  rw [← hf₁] at hopened
  have hinbox₁ : f₁.inboxes[f.inboxes.length]? = some (⟨notification.userID, {}⟩ : Inbox) := by
    simp [hf₁]
  obtain ⟨inbox, hinbox⟩ : ∃ inbox : Inbox, inbox = ⟨notification.userID,
      NotificationVC.delivered {} .stable notifications notification.userID⟩ := ⟨_, rfl⟩
  obtain ⟨f₂, hf₂⟩ : ∃ f₂, f₂ = { f₁ with inboxes := f₁.inboxes.set f.inboxes.length inbox } :=
    ⟨_, rfl⟩
  have hqueried : step ids f₁ (.queryNotification f.inboxes.length .stable) = some f₂ := by
    have hlist₁ : NotificationVC.readNotifications f₁.world.db = some notifications := by
      rw [hf₁]
      exact hlist
    simp [step, hinbox₁, hlist₁, hf₂, hinbox]
  have hinbox₂ : f₂.inboxes[f.inboxes.length]? = some inbox := by simp [hf₂, hf₁]
  obtain ⟨f₃, htapped⟩ : ∃ f₃, step ids f₂ (.didSelectRow f.inboxes.length row) = some f₃ := by
    simp [step, hinbox₂, NotificationVC.didSelectRowAt, hinbox, hrow]
  have halone : Alone ids notification.userID f f₃ := by
    apply Alone.cons hopened rfl
    apply Alone.cons hqueried (by simp [author, hinbox₁])
    exact Alone.cons htapped (by simp [author, hinbox₂, hinbox]) (.refl _)
  obtain ⟨after, hafter, hlater⟩ := (told_reachable h).read_reachable halone.reachable hread
  refine ⟨f₃, after, halone, ?_, hafter, hlater⟩
  have hworld : f₂.world = f.world := by rw [hf₂, hf₁]
  have hstep := Step.of_step ids htapped
  have hbase : ∀ action, Action.didSelectRow f.inboxes.length row ≠ .base action := by simp
  obtain ⟨count, heq⟩ := hstep.world_eq hbase
  rw [heq, ← hworld]
  exact (same_of_aside (hstep.issued_aside hbase) count).of_bare

/-- The record of an unanswered invitation is among those the screen asks for. -/
theorem exists_fetch {db : Store} (hdb : (db.hide "comment").Within Schema) {eventID : String}
    {lists : List EventList} (hlists : EventContentVC.readEventLists db uid = some lists)
    (hpending : db.bool? ["invitingEventList", uid, eventID, "isReply"] = some false) :
    ∃ (fetch : Nat) (list : EventList), lists[fetch]? = some list ∧ list.eventID = eventID ∧
      list.isReply = false := by
  have hleaf := Store.bool?_eq_some.mp hpending
  have hchild : eventID ∈ db.children ["invitingEventList", uid] := by
    rw [Store.mem_children_iff_contains, Store.contains_iff]
    exact ⟨["isReply"], _, hleaf⟩
  have hsome := mapM_isSome_iff.mp (Option.isSome_of_eq_some hlists) eventID hchild
  obtain ⟨list, hlist⟩ := Option.isSome_iff_exists.mp hsome
  obtain ⟨fetch, hfetch⟩ := List.mem_iff_getElem?.mp
    ((mem_mapM_iff hlists list).mpr ⟨eventID, hchild, hlist⟩)
  refine ⟨fetch, list, hfetch, ?_, ?_⟩
  · have hne : "invitingEventList" ≠ "comment" := by decide
    exact EventList.eventID_of_read hdb ((EventList.read_hide hne _).trans hlist)
  · simpa using (EventList.read_eq_some.mp hlist).2.1.symm.trans hleaf

theorem can_be_prompted (h : Reachable (step ids) empty f)
    (hread : GNotification.read f.world.db ["notification", id] = some notification)
    (hpending : f.world.db.bool?
      ["invitingEventList", notification.userID, notification.eventID, "isReply"] = some false)
    (hlists : (EventContentVC.readEventLists f.world.db notification.userID).isSome = true) :
    ∃ (f' : Feed) (screen : Nat) (vc : EventContentVC) (prompt : AnswerSelector),
      Alone ids notification.userID f f' ∧ f'.world.db = f.world.db ∧
      f'.world.contentVCs[screen]? = some vc ∧ vc.answerSelector = some prompt ∧
      vc.currentUser = notification.userID ∧ vc.event.eventID = notification.eventID ∧
      vc.event.memberIDs = (tables f.world.db).memberIDs notification.eventID ∧
      vc.notification = some notification := by
  obtain ⟨hgov, hknown⟩ := known_reachable h
  have hschema := hgov.lawful.schema
  obtain ⟨organiserID, hby, -⟩ := hknown.stored id notification hread
  obtain ⟨event, hevent, heventID, -, hmembers⟩ := hknown.read_event hgov
    (node_of_organiser hby)
  have hregistered : Registered f.world.bare.db notification.userID := by
    apply (mirror_reachable h).registered _ notification.eventID
    rw [← tables_bare, pending_tables]
    exact hpending
  have huid := hregistered.ne_empty hschema
  obtain ⟨user, huser⟩ : ∃ user, GUser.read f.world.db ["user", notification.userID] = some user := by
    have hne : "user" ≠ "comment" := by decide
    obtain ⟨user, huser⟩ := Option.isSome_iff_exists.mp hregistered
    exact ⟨user, (GUser.read_hide hne _).symm.trans huser⟩
  have hfound : f.world.db.contains ["user", notification.userID] = true :=
    (Store.contains_iff _ _).mpr ⟨["userID"], _, (GUser.read_eq_some.mp huser).1⟩
  obtain ⟨lists, hlists⟩ := Option.isSome_iff_exists.mp hlists
  obtain ⟨fetch, list, hfetch, hlistID, hreply⟩ := exists_fetch hschema hlists hpending
  -- the screen is opened from the notification, and its callbacks come back one after another
  obtain ⟨vc, hvc⟩ : ∃ vc : EventContentVC, vc = ⟨notification.userID, event, some notification,
      [], [], none, false⟩ := ⟨_, rfl⟩
  have hopen : World.opened f.world.db notification.userID notification.eventID (some id) =
      some vc := by simp [World.opened, hevent, hread, hvc]
  obtain ⟨w₁, hopened, hdb₁, hvc₁⟩ := World.can_open ids hopen huid
  have hload : vc.queryEventList w₁.db = some { vc with userFetches := lists } := by
    simp [EventContentVC.queryEventList, hdb₁, hlists, hvc]
  obtain ⟨w₂, hqueried, hdb₂, hvc₂⟩ := World.can_queryEventList ids hvc₁ hload
  have hprompt : EventContentVC.userFetched { vc with userFetches := lists } w₂.db list
      notification.time (ids.key w₂.drawn) = some ({ vc with userFetches := lists }.showAnwserSelector
        user notification.time (ids.key w₂.drawn)) := by
    simp [EventContentVC.userFetched, hdb₂, hdb₁, hfound, huser, hlistID, heventID, hreply, hvc]
  obtain ⟨w₃, hfetched, hdb₃, hvc₃⟩ := World.can_userFetched ids hvc₂ hfetch hprompt
  have halone : Alone ids notification.userID f { f with world := w₃ } := by
    apply (Alone.base hopened rfl).trans
    apply (Alone.base hqueried (by simp [World.author, hvc₁, hvc])).trans
    exact Alone.base hfetched (by simp [World.author, hvc₂, hvc])
  refine ⟨_, _, _, _, halone, (hdb₃.trans hdb₂).trans hdb₁, hvc₃, rfl, ?_, ?_, ?_, ?_⟩
  · simp [EventContentVC.showAnwserSelector, hvc]
  · simp [EventContentVC.showAnwserSelector, hvc, heventID]
  · simp [EventContentVC.showAnwserSelector, hvc, hmembers]
  · simp [EventContentVC.showAnwserSelector, hvc]

/-- An invitation can be answered either way from its addressee's list, by their own actions
alone: as long as their records can be read, both answers are only a few steps away, and
each makes the one change of the membership it stands for. -/
theorem invitations_can_be_answered (ids : AutoId) (f : Feed)
    (h : Reachable (step ids) Feed.empty f) (id : String) (notification : GNotification)
    (hread : GNotification.read f.world.db ["notification", id] = some notification)
    (hpending : f.world.db.bool?
      ["invitingEventList", notification.userID, notification.eventID, "isReply"] = some false)
    (hlists : (EventContentVC.readEventLists f.world.db notification.userID).isSome = true) :
    ∃ joined declined, Alone ids notification.userID f joined ∧
      Alone ids notification.userID f declined ∧
      tables joined.world.db = (tables f.world.db).accept notification.userID
        notification.eventID ((tables f.world.db).memberIDs notification.eventID) ∧
      tables declined.world.db = (tables f.world.db).reject notification.userID
        notification.eventID := by
  have huid : notification.userID ≠ "" := by
    have hregistered : Registered f.world.bare.db notification.userID := by
      apply (mirror_reachable h).registered _ notification.eventID
      rwa [← tables_bare, pending_tables]
    exact hregistered.ne_empty (known_reachable h).1.lawful.schema
  obtain ⟨f₁, after, halone, hsame, hafter, hlater⟩ := can_tap h hread huid
  have htables := hsame.tables_eq
  have huser : after.userID = notification.userID := by rw [hlater.fields]
  have hevent : after.eventID = notification.eventID := by rw [hlater.fields]
  obtain ⟨f₂, screen, vc, prompt, halone', hdb, hvc, hprompt, hcurrent, heventID, hmembers,
      hnotification⟩ := can_be_prompted (h.trans halone.reachable) hafter
    (by rw [huser, hevent, ← pending_tables, htables, pending_tables]; exact hpending)
    (by rw [huser, hsame.readEventLists]; exact hlists)
  rw [huser] at halone' hcurrent
  rw [hevent] at heventID hmembers
  have hagree : World.step ids f₂.world (.agree screen) =
      some ((f₂.world.write (vc.agree prompt)).setContent screen vc.agreed) := by
    simp [World.step, hvc, hprompt]
  have hreject : World.step ids f₂.world (.reject screen) =
      some ((f₂.world.write (vc.reject prompt).writes).setContent screen vc.rejected) := by
    simp [World.step, hvc, hprompt, EventContentVC.reject, hnotification]
  have hauthor : (f₂.world.contentVCs[screen]?).map (·.currentUser) = some notification.userID := by
    rw [hvc, Option.map_some, hcurrent]
  refine ⟨_, _, (halone.trans halone').trans (.base hagree hauthor),
    (halone.trans halone').trans (.base hreject hauthor), ?_, ?_⟩
  · change tables (f₂.world.db.applyAll (vc.agree prompt)) = _
    rw [tables_agree, hdb, htables, hcurrent, heventID, hmembers, htables]
  · change tables (f₂.world.db.applyAll (vc.reject prompt).writes) = _
    rw [tables_reject _ _ _ hnotification, hdb, htables, hcurrent, heventID]

end Answer

theorem invitations_can_be_answered_invitation : ∃ f joined declined,
    exec (step .unary) Feed.empty invitation = some f ∧ Alone .unary "bob" f joined ∧
      Alone .unary "bob" f declined ∧ (tables joined.world.db).memberIDs "k" = ["", "bob"] ∧
      (tables declined.world.db).memberIDs "k" = [""] := by
  have hrun : ((exec (step .unary) Feed.empty invitation).any fun f =>
      ((GNotification.read f.world.db ["notification", "kk"]).any fun notification =>
        notification.userID = "bob" ∧ notification.eventID = "k") &&
      decide (f.world.db.bool? ["invitingEventList", "bob", "k", "isReply"] = some false ∧
        (EventContentVC.readEventLists f.world.db "bob").isSome = true ∧
        (tables f.world.db).memberIDs "k" = [""])) = true := by decide
  obtain ⟨f, hf, hrest⟩ := (Option.any_eq_true _ _).mp hrun
  rw [Bool.and_eq_true] at hrest
  obtain ⟨notification, hread, huser⟩ := (Option.any_eq_true _ _).mp hrest.1
  obtain ⟨hpending, hlists, hmembers⟩ := of_decide_eq_true hrest.2
  obtain ⟨huser, hevent⟩ := of_decide_eq_true huser
  obtain ⟨joined, declined, hjoin, hdecline, hjoined, hdeclined⟩ :=
    invitations_can_be_answered .unary f ⟨invitation, hf⟩ "kk" notification hread
      (by rw [huser, hevent]; exact hpending) (by rw [huser]; exact hlists)
  rw [huser] at hjoin hdecline
  refine ⟨f, joined, declined, hf, hjoin, hdecline, ?_, ?_⟩
  · rw [hjoined, huser, hevent]
    simp [Tables.accept, hmembers]
  · rw [hdeclined, huser, hevent]
    exact hmembers

/-- Whoever has joined an event can leave it by their own actions alone. Nothing else of the
membership changes, and the organiser is told. -/
theorem members_can_leave (ids : AutoId) (f : Feed) (h : Reachable (step ids) Feed.empty f)
    (uid eventID : String) (huid : uid ≠ "")
    (hmember : uid ∈ (tables f.world.db).memberIDs eventID) :
    ∃ left, Alone ids uid f left ∧
      tables left.world.db =
        (tables f.world.db).dropOut uid eventID ((tables f.world.db).memberIDs eventID) ∧
      ∃ id notification, ¬Noticed f.world.db id ∧
        GNotification.read left.world.db ["notification", id] = some notification ∧
        notification.eventID = eventID ∧ OrganisedBy f.world.db eventID notification.userID := by
  obtain ⟨hgov, hknown⟩ := known_reachable h
  obtain ⟨event, hevent, heventID, hby, hmembers⟩ :=
    hknown.read_event hgov (node_of_member hmember)
  rw [hmembers] at hmember ⊢
  have hguest : event.organiserID ≠ uid := by
    rintro rfl
    exact hgov.not_member hby (by rw [hmembers]; exact hmember)
  -- the row of the main screen, and the drop out on the screen it opens
  have hopen : World.opened f.world.db uid eventID none =
      some { currentUser := uid, event, notification := none } := by
    simp [World.opened, hevent, MainVC.joins, hmember]
  obtain ⟨w₁, hopened, hdb₁, hvc₁⟩ := World.can_open ids hopen huid
  have hleave : ∃ left, step ids { f with world := w₁ }
      (.base (.dropOut f.world.contentVCs.length event.date)) = some left := by
    simp [step, World.step, hvc₁, EventContentVC.offersEdit, EventContentVC.showsDropOutAlert,
      hguest.symm, hmember]
  obtain ⟨left, hleft⟩ := hleave
  have hopened' := Alone.base hopened rfl
  have hauthor : Feed.author { f with world := w₁ }
      (.base (.dropOut f.world.contentVCs.length event.date)) = some uid := by
    simp [author, World.author, hvc₁]
  refine ⟨left, hopened'.trans (.cons hleft hauthor (.refl _)), ?_, ?_⟩
  · have hdb := (Step.of_step ids hleft).db_eq
    simp only [issued, World.issued, hvc₁] at hdb
    rw [hdb, tables_dropOut, hdb₁, heventID]
  · have htold := told_reachable (h.trans hopened'.reachable)
    have hstep := Step.of_step ids hleft
    have hissued : Feed.issued ids { f with world := w₁ }
        (.base (.dropOut f.world.contentVCs.length event.date)) = EventContentVC.dropOut
          { currentUser := uid, event, notification := none } (ids.key w₁.drawn) event.date := by
      simp only [issued, World.issued, hvc₁]
    have hposted : ids.key w₁.drawn ∈ notificationLedger.posted (Feed.issued ids
        { f with world := w₁ } (.base (.dropOut f.world.contentVCs.length event.date))) := by
      rw [hissued]
      exact List.mem_singleton_self _
    obtain ⟨sent, hkey, hsent, after, hafter, hlater⟩ := htold.posted hstep hposted
    obtain rfl : sent = EventContentVC.dropOutNotification
        { currentUser := uid, event, notification := none } (ids.key w₁.drawn) event.date := by
      rw [hissued] at hsent
      simp only [EventContentVC.dropOut, List.mem_cons, List.not_mem_nil, or_false] at hsent
      rcases hsent with heq | heq | heq
      · simp [told] at heq
      · simp [told] at heq
      · exact told_inj heq
    refine ⟨ids.key w₁.drawn, after, ?_, hafter, ?_, ?_⟩
    · rw [← hdb₁]
      exact htold.not_noticed hstep hposted
    · rw [hlater.fields]
      exact heventID
    · rw [hlater.fields]
      exact hby

def joined : List Action := prompted ++ [.base (.agree 0)]

theorem members_can_leave_joined : ∃ f left, exec (step .unary) Feed.empty joined = some f ∧
    Alone .unary "bob" f left ∧ (tables left.world.db).memberIDs "k" = [""] := by
  have hrun : ((exec (step .unary) Feed.empty joined).any fun f =>
      (tables f.world.db).memberIDs "k" = ["", "bob"]) = true := by decide
  obtain ⟨f, hf, hmembers⟩ := (Option.any_eq_true _ _).mp hrun
  have hmembers : (tables f.world.db).memberIDs "k" = ["", "bob"] := of_decide_eq_true hmembers
  obtain ⟨left, halone, hleft, -⟩ := members_can_leave .unary f ⟨joined, hf⟩ "bob" "k"
    (by decide) (by simp [hmembers])
  refine ⟨f, left, hf, halone, ?_⟩
  rw [hleft, hmembers]
  simp [Tables.dropOut]

end Feed

end GetTogether
