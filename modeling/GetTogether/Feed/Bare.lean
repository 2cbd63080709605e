import GetTogether.Feed
import GetTogether.Realtime.Hide
import GetTogether.World.Organisers

/-! What the membership sees of the whole app. The screens of events never read or write
the comments, and the comment screens and notification lists touch no membership table,
so everything known of the screens of events alone is known here. -/
namespace GetTogether

open Realtime Roster

section Hidden

variable {db : Store} {key head : String} (hne : head ≠ key) (path : Path)

include hne

theorem Event.read_hide : Event.read (db.hide key) (head :: path) = Event.read db (head :: path) := by
  simp only [Event.read, List.cons_append, Store.string?_hide hne, Store.array?_hide hne]

theorem GUser.read_hide : GUser.read (db.hide key) (head :: path) = GUser.read db (head :: path) := by
  simp only [GUser.read, List.cons_append, Store.string?_hide hne]

theorem EventList.read_hide :
    EventList.read (db.hide key) (head :: path) = EventList.read db (head :: path) := by
  simp only [EventList.read, List.cons_append, Store.string?_hide hne, Store.bool?_hide hne]

theorem GNotification.read_hide :
    GNotification.read (db.hide key) (head :: path) = GNotification.read db (head :: path) := by
  simp only [GNotification.read, List.cons_append, Store.string?_hide hne, Store.bool?_hide hne]

end Hidden

namespace World

/-- The same screens on the database without the comments. -/
def bare (w : World) : World := { w with db := w.db.hide "comment" }

variable {ids : AutoId} {w w' : World} {a : Action}

theorem opened_bare (db : Store) (uid eventID : String) (notificationID : Option String) :
    opened (db.hide "comment") uid eventID notificationID = opened db uid eventID notificationID := by
  have hevent : "event" ≠ "comment" := by decide
  have hnotification : "notification" ≠ "comment" := by decide
  cases notificationID with
  | none => simp only [opened, Event.read_hide hevent]
  | some notificationID =>
    simp only [opened, Event.read_hide hevent, GNotification.read_hide hnotification]

theorem queryEventList_bare (vc : EventContentVC) (db : Store) :
    vc.queryEventList (db.hide "comment") = vc.queryEventList db := by
  have hlist : "invitingEventList" ≠ "comment" := by decide
  simp only [EventContentVC.queryEventList, EventContentVC.readEventLists,
    Store.children_hide hlist, EventList.read_hide hlist]

theorem userFetched_bare (vc : EventContentVC) (db : Store) (eventList : EventList)
    (time notificationID : String) :
    vc.userFetched (db.hide "comment") eventList time notificationID =
      vc.userFetched db eventList time notificationID := by
  have huser : "user" ≠ "comment" := by decide
  simp only [EventContentVC.userFetched, Store.contains_hide huser, GUser.read_hide huser]

theorem queryUserData_bare (vc : EventContentVC) (db : Store) :
    vc.queryUserData (db.hide "comment") = vc.queryUserData db := by
  have huser : "user" ≠ "comment" := by decide
  simp only [EventContentVC.queryUserData, Store.children_hide huser, GUser.read_hide huser]

theorem queryOrganiserData_bare (vc : AddEventVC) (db : Store) :
    vc.queryOrganiserData (db.hide "comment") = vc.queryOrganiserData db := by
  have huser : "user" ≠ "comment" := by decide
  simp only [AddEventVC.queryOrganiserData, Store.contains_hide huser, Store.string?_hide huser]

theorem Step.issued_off (h : Step ids w a w') : ∀ write ∈ w.issued ids a, write.Off "comment" := by
  have hoff : ∀ {head : String} {write : Write}, write.topKey = some head → head ≠ "comment" →
      write.Off "comment" := fun htop hne => ⟨_, htop, hne⟩
  cases h with
  | saveUser _ => simpa [issued] using hoff rfl (by decide)
  | agree hvc hprompt =>
    simp only [issued, hvc, hprompt, Option.map_some, Option.getD_some, EventContentVC.agree,
      List.forall_mem_cons]
    exact ⟨hoff rfl (by decide), hoff rfl (by decide), hoff rfl (by decide), hoff rfl (by decide),
      by simp⟩
  | reject hvc hprompt hnotification =>
    simp only [issued, hvc, hprompt, Option.map_some, Option.getD_some, EventContentVC.reject,
      hnotification, Outcome.issue_writes, List.forall_mem_cons]
    exact ⟨hoff rfl (by decide), hoff rfl (by decide), hoff rfl (by decide), hoff rfl (by decide),
      hoff rfl (by decide), by simp⟩
  | dropOut hvc _ _ =>
    simp only [issued, hvc, EventContentVC.dropOut, List.forall_mem_cons]
    exact ⟨hoff rfl (by decide), hoff rfl (by decide), hoff rfl (by decide), by simp⟩
  | @uploaded screen runtime time url autoID vc hvc hphase =>
    simp only [issued, hvc, hphase]
    apply AddEventVC.uploadEventData_forall
    · intro event _ round member
      apply Outcome.andThen_forall
      · simp only [Outcome.issue_writes, List.forall_mem_cons]
        exact ⟨hoff rfl (by decide), hoff rfl (by decide), by simp⟩
      · cases vc.user with
        | none => simp [Outcome.trap]
        | some user =>
          simp only [Outcome.issue_writes, List.forall_mem_cons]
          exact ⟨hoff rfl (by decide), hoff rfl (by decide), by simp⟩
    · intro round member
      apply Outcome.andThen_forall
      · simp only [Outcome.issue_writes, List.forall_mem_cons]
        exact ⟨hoff rfl (by decide), hoff rfl (by decide), by simp⟩
      · cases vc.user with
        | none => simp [Outcome.trap]
        | some user =>
          simp only [Outcome.issue_writes, List.forall_mem_cons]
          exact ⟨hoff rfl (by decide), by simp⟩
    · exact hoff rfl (by decide)
  | _ => simp [issued]

/-- Every step of the screens of events is one on the database without the comments. -/
theorem Step.bare (h : Step ids w a w') : Step ids w.bare a w'.bare := by
  have hoff := h.issued_off
  have hwrite : ∀ writes, w.issued ids a = writes → w.bare.write writes = (w.write writes).bare := by
    intro writes hissued
    rw [hissued] at hoff
    simp only [World.bare, write, Store.applyAll_hide hoff]
  cases h with
  | @saveUser user huser =>
    have hstep : Step ids w.bare (.saveUser user) _ := .saveUser huser
    rw [hwrite [.setValue ["user", user.userID] user.uploadedUserData] rfl] at hstep
    exact hstep
  | openEvent hopen huid => exact .openEvent ((opened_bare ..).trans hopen) huid
  | queryEventList hvc hload => exact .queryEventList hvc ((queryEventList_bare ..).trans hload)
  | userFetched hvc hlist hload =>
    exact .userFetched hvc hlist ((userFetched_bare ..).trans hload)
  | queryUserData hvc hload => exact .queryUserData hvc ((queryUserData_bare ..).trans hload)
  | @agree screen vc prompt hvc hprompt =>
    have hstep : Step ids w.bare (.agree screen) _ := .agree hvc hprompt
    rw [hwrite (vc.agree prompt) (by simp [issued, hvc, hprompt])] at hstep
    exact hstep
  | @reject screen vc prompt notification hvc hprompt hnotification =>
    have hstep : Step ids w.bare (.reject screen) _ := .reject hvc hprompt hnotification
    rw [hwrite (vc.reject prompt).writes (by simp [issued, hvc, hprompt])] at hstep
    exact hstep
  | @dropOut screen time vc hvc hself hmember =>
    have hstep : Step ids w.bare (.dropOut screen time) _ := .dropOut hvc hself hmember
    rw [hwrite (vc.dropOut (ids.key w.bare.drawn) time) (by simp [issued, hvc, World.bare])] at hstep
    exact hstep
  | newEvent huid => exact .newEvent huid
  | editEvent hvc hself => exact .editEvent hvc hself
  | queryOrganiserData hvc hload =>
    exact .queryOrganiserData hvc ((queryOrganiserData_bare ..).trans hload)
  | didUpdateMember hvc hphase hfound huser =>
    have huserKey : "user" ≠ "comment" := by decide
    exact .didUpdateMember hvc hphase ((Store.contains_hide huserKey _).trans hfound) huser
  | deleteData hvc hphase hdelete => exact .deleteData hvc hphase hdelete
  | fillIn hvc hphase => exact .fillIn hvc hphase
  | done hvc hphase => exact .done hvc hphase
  | @uploaded screen runtime time url autoID vc hvc hphase =>
    have hstep : Step ids w.bare (.uploaded screen runtime time url) _ := .uploaded hvc hphase
    rw [hwrite (vc.uploadEventData runtime (some vc.currentUser) autoID
      (fun n => ids.key (w.bare.drawn + n)) time url).writes
        (by simp [issued, hvc, hphase, World.bare])] at hstep
    exact hstep

/-- The same screens over the same membership tables, with more keys handed out. -/
structure Same (w w' : World) : Prop where
  contentVCs : w'.contentVCs = w.contentVCs
  addVCs : w'.addVCs = w.addVCs
  drawn : w.drawn ≤ w'.drawn
  get : ∀ head ∈ ["user", "event", "invitingEventList", "invitingMemberList"], ∀ rest,
    w'.db.get (head :: rest) = w.db.get (head :: rest)

section Same

variable (hsame : Same w w')

include hsame

theorem Same.tables_eq : tables w'.db = tables w.db := by
  have hevent := hsame.get "event" (by simp)
  have hlist := hsame.get "invitingEventList" (by simp)
  have hasked := hsame.get "invitingMemberList" (by simp)
  ext1 <;> simp only [tables, Store.string?, Store.bool?, Store.array?, hevent, hlist, hasked]

theorem Same.held_iff (eventID : String) (memberIDs : List String) :
    w'.Held eventID memberIDs ↔ w.Held eventID memberIDs := by
  rw [Held, hsame.contentVCs, hsame.addVCs, Held]

theorem Same.organisedBy_iff (eventID uid : String) :
    OrganisedBy w'.db eventID uid ↔ OrganisedBy w.db eventID uid := by
  rw [OrganisedBy, hsame.get "event" (by simp), OrganisedBy]

theorem Same.registered {uid : String} (h : Registered w.db uid) : Registered w'.db uid :=
  h.of_get_eq fun rest => hsame.get "user" (by simp) (uid :: rest)

theorem Same.blank {eventID : String} (h : Blank w.db eventID) : Blank w'.db eventID := by
  refine ⟨(hsame.get "event" (by simp) _).trans h.organiser, ?_⟩
  rw [hsame.tables_eq]
  exact h.recorded

theorem Same.unused {log : Log String String} {eventID : String} (h : Unused log w eventID) :
    Unused log w' eventID := by
  refine ⟨h.log, ?_, fun memberIDs hheld => ?_⟩
  · rw [hsame.tables_eq]
    exact h.stored
  · exact h.held memberIDs ((hsame.held_iff eventID memberIDs).mp hheld)

theorem Same.accounts (h : Accounts w) : Accounts w' where
  stored := registered_of_cases
    (fun uid => .inr fun rest => hsame.get "user" (by simp) (uid :: rest)) h.stored
  content vc hvc := by
    have hold := h.content vc (hsame.contentVCs ▸ hvc)
    exact ⟨hold.1, fun user huser => hsame.registered (hold.2 user huser)⟩
  add vc hvc := by
    have hold := h.add vc (hsame.addVCs ▸ hvc)
    exact ⟨hold.1, fun user huser => hsame.registered (hold.2 user huser)⟩

theorem Same.enrolled (h : Enrolled w) : Enrolled w' := by
  refine ⟨?_, fun e m hheld => ?_, ?_⟩
  · rw [hsame.tables_eq, hsame.contentVCs]
    exact h.prompts
  · rw [hsame.tables_eq]
    exact h.held e m ((hsame.held_iff e m).mp hheld)
  · rw [hsame.tables_eq]
    exact h.stored

theorem Same.chronicle {log : Log String String} (h : Chronicle ids log w) :
    Chronicle ids log w' where
  noone := h.noone
  stored := by
    rw [hsame.tables_eq]
    exact h.stored
  held e m hheld := h.held e m ((hsame.held_iff e m).mp hheld)
  undrawn n hn := hsame.unused (h.undrawn n (hsame.drawn.trans hn))
  uploading i vc autoID hvc hphase := by
    rw [hsame.addVCs] at hvc
    obtain ⟨⟨n, hn, hkey⟩, hunused⟩ := h.uploading i vc autoID hvc hphase
    exact ⟨⟨n, hn.trans_le hsame.drawn, hkey⟩, fun hnone => hsame.unused (hunused hnone)⟩
  distinct := by
    rw [hsame.addVCs]
    exact h.distinct

theorem Same.organised (h : Organised ids w) : Organised ids w' where
  aside e uid hby := by
    rw [hsame.tables_eq]
    exact h.aside e uid ((hsame.organisedBy_iff e uid).mp hby)
  content vc hvc := by
    have hold := h.content vc (hsame.contentVCs ▸ hvc)
    exact ⟨(hsame.organisedBy_iff _ _).mpr hold.1, hold.2⟩
  add vc hvc := by
    have hold := h.add vc (hsame.addVCs ▸ hvc)
    refine ⟨fun event hevent => ?_, hold.2⟩
    exact ⟨(hsame.organisedBy_iff _ _).mpr (hold.1 event hevent).1, (hold.1 event hevent).2⟩
  undrawn n hn := hsame.blank (h.undrawn n (hsame.drawn.trans hn))
  uploading i vc autoID hvc hphase hnone :=
    hsame.blank (h.uploading i vc autoID (hsame.addVCs ▸ hvc) hphase hnone)

theorem Same.lawful (hw : w'.db.Within Schema) (h : Lawful ids w) : Lawful ids w' := by
  obtain ⟨log, hchr⟩ := h.chronicle
  exact ⟨hw, hsame.accounts h.accounts, hsame.enrolled h.enrolled, ⟨log, hsame.chronicle hchr⟩,
    hsame.organised h.organised⟩

end Same

theorem same_of_bare (w : World) : Same w.bare w where
  contentVCs := rfl
  addVCs := rfl
  drawn := Nat.le_refl _
  get head hhead rest := by
    have hne : head ≠ "comment" := by
      rintro rfl
      simp at hhead
    exact (Store.get_hide hne rest).symm

theorem Same.of_bare (hsame : Same w.bare w'.bare) : Same w w' where
  contentVCs := hsame.contentVCs
  addVCs := hsame.addVCs
  drawn := hsame.drawn
  get head hhead rest :=
    ((same_of_bare w').get head hhead rest).trans
      ((hsame.get head hhead rest).trans ((same_of_bare w).get head hhead rest).symm)

end World

namespace Feed

variable {ids : AutoId} {f f' : Feed} {a : Action}

def issued (ids : AutoId) (f : Feed) : Action → List Write
  | .base action => f.world.issued ids action
  | .table screen action => match f.commentVCs[screen]? with
    | some s => s.written action
    | none => []
  | .inputPressed screen content timeZone now => match f.commentVCs[screen]? with
    | some s => (s.currentUser.map fun currentUser =>
        s.vc.inputPressed currentUser (ids.key f.world.drawn) content timeZone now).getD []
    | none => []
  | .senderFetched i => match f.inputs[i]? with
    | some input => (input.writes f.world.db fun n => ids.key (f.world.drawn + n)).getD []
    | none => []
  | .didSelectRow i row => match f.inboxes[i]? with
    | some inbox => (inbox.vc.didSelectRowAt row).getD []
    | none => []
  | _ => []

theorem Step.db_eq (h : Step ids f a f') :
    f'.world.db = f.world.db.applyAll (f.issued ids a) := by
  cases h with
  | base h => exact h.db_eq
  | table hs hstep _ => simp only [issued, hs]; rfl
  | inputPressed hs huser => simp only [issued, hs, huser]; rfl
  | senderFetched hinput _ hwrites => simp only [issued, hinput, hwrites]; rfl
  | didSelectRow hinbox hrow =>
    simp only [issued, hinbox, NotificationVC.didSelectRowAt, hrow]
    rfl
  | _ => rfl

theorem Step.drawn_le (h : Step ids f a f') : f.world.drawn ≤ f'.world.drawn := by
  cases h with
  | base h => exact h.drawn_le
  | _ => simp [write, draw, World.write, World.draw]

inductive Aside : Write → Prop
  | comment {write : Write} : write.topKey = some "comment" → Aside write
  | notification {write : Write} : write.topKey = some "notification" → write.Within Schema →
      Aside write

theorem Aside.told (notification : GNotification) : Aside (told notification) :=
  .notification rfl notification.within_schema

theorem mem_userFetched {vc : CommentVC} {currentUser commentID time : String} {sender : GUser}
    {newID : Nat → String} {write : Write}
    (h : write ∈ vc.userFetched currentUser commentID sender newID time) :
    ∃ notification ∈ vc.notifications currentUser commentID sender newID time,
      write = told notification := by
  obtain ⟨notification, hmem, rfl⟩ := List.mem_map.mp h
  exact ⟨notification, hmem, rfl⟩

theorem Input.writes_eq_some {input : Input} {db : Store} {newID : Nat → String}
    {writes : List Write} (h : input.writes db newID = some writes) :
    writes = [] ∨ ∃ sender, GUser.read db ["user", input.currentUser] = some sender ∧
      writes = input.vc.userFetched input.currentUser input.commentID sender newID input.time := by
  unfold Input.writes at h
  split at h
  · obtain ⟨sender, hread, rfl⟩ := Option.map_eq_some_iff.mp h
    exact .inr ⟨sender, hread, rfl⟩
  · exact .inl (Option.some.inj h).symm

theorem written_eq (s : CommentTable) (action : CommentTable.Action) :
    s.written action = [] ∨ ∃ row comment, action = .commitDelete ∧ s.swiped = some row ∧
      s.commentData[row]? = some comment ∧
      s.written action = [.removeValue ["comment", s.vc.event.eventID, comment.commentID]] := by
  cases action with
  | commitDelete =>
    cases hrow : s.swiped with
    | none => simp [CommentTable.written, hrow]
    | some row =>
      cases hcomment : s.commentData[row]? with
      | none => simp [CommentTable.written, CommentTable.commit, hrow, hcomment]
      | some comment =>
        exact .inr ⟨row, comment, rfl, rfl, hcomment,
          by simp [CommentTable.written, CommentTable.commit, hrow, hcomment]⟩
  | _ => exact .inl rfl

/-- All but the screens of events write comments and notifications only. -/
theorem Step.issued_aside (h : Step ids f a f') (hbase : ∀ action, a ≠ .base action) :
    ∀ write ∈ f.issued ids a, Aside write := by
  cases h with
  | base _ => exact absurd rfl (hbase _)
  | @table screen action s s' hs _ _ =>
    simp only [issued, hs]
    rcases written_eq s action with heq | ⟨row, comment, -, -, -, heq⟩
    · simp [heq]
    · simpa [heq] using Aside.comment rfl
  | inputPressed hs huser =>
    simpa [issued, hs, huser, CommentVC.inputPressed] using Aside.comment rfl
  | senderFetched hinput _ hwrites =>
    simp only [issued, hinput, hwrites, Option.getD_some]
    rcases Input.writes_eq_some hwrites with rfl | ⟨sender, -, rfl⟩
    · simp
    · intro write hwrite
      obtain ⟨notification, -, rfl⟩ := mem_userFetched hwrite
      exact .told notification
  | didSelectRow hinbox hrow =>
    simp only [issued, hinbox, NotificationVC.didSelectRowAt, hrow]
    simpa using Aside.notification rfl
      (Write.within_updateChildValues (.notificationFlag _ _ (by simp)))
  | _ => simp [issued]

theorem Aside.apart {write : Write} (h : Aside write) {head : String} (hcomment : "comment" ≠ head)
    (hnotification : "notification" ≠ head) : write.Apart head := by
  cases h with
  | comment htop => exact Write.apart_of_topKey htop hcomment
  | notification htop _ => exact Write.apart_of_topKey htop hnotification

theorem Aside.within_apply {write : Write} (h : Aside write) {db : Store}
    (hdb : (db.hide "comment").Within Schema) :
    ((write.apply db).hide "comment").Within Schema := by
  cases h with
  | comment htop =>
    rw [Write.hide_apply htop]
    exact hdb
  | notification htop hwithin =>
    have hoff : write.Off "comment" := ⟨_, htop, by decide⟩
    rw [hoff.apply_hide]
    have hone : ∀ other ∈ [write], other.Within Schema := by simpa using hwithin
    exact hdb.applyAll hone

theorem same_of_aside {w : World} {writes : List Write} (h : ∀ write ∈ writes, Aside write)
    (count : Nat) : World.Same w.bare ((w.write writes).draw count).bare := by
  refine ⟨rfl, rfl, Nat.le_add_right _ _, fun head hhead rest => ?_⟩
  have hne : "comment" ≠ head ∧ "notification" ≠ head := by
    constructor <;> rintro rfl <;> simp at hhead
  change ((w.db.applyAll writes).hide "comment").get _ = (w.db.hide "comment").get _
  rw [Store.get_hide hne.1.symm, Store.get_hide hne.1.symm]
  exact get_applyAll_of_apart (fun write hwrite => (h write hwrite).apart hne.1 hne.2) rest

theorem within_of_aside {w : World} {writes : List Write} (h : ∀ write ∈ writes, Aside write)
    (hw : w.bare.db.Within Schema) (count : Nat) :
    ((w.write writes).draw count).bare.db.Within Schema :=
  Store.applyAll_invariant (fun db => (db.hide "comment").Within Schema)
    (fun write hwrite _ hdb => (h write hwrite).within_apply hdb) hw

theorem Step.world_eq (h : Step ids f a f') (hbase : ∀ action, a ≠ .base action) :
    ∃ count, f'.world = (f.world.write (f.issued ids a)).draw count := by
  have hdb := h.db_eq
  cases h with
  | base _ => exact absurd rfl (hbase _)
  | inputPressed hs huser => exact ⟨1, by simp [issued, hs, huser, write, draw]⟩
  | @senderFetched i input writes hinput _ hwrites =>
    exact ⟨input.drawn, by simp [issued, hinput, hwrites, write, draw]⟩
  | table hs hstep _ => exact ⟨0, by simp [issued, hs, write, World.draw]⟩
  | didSelectRow hinbox hrow =>
    exact ⟨0, by simp [issued, hinbox, NotificationVC.didSelectRowAt, hrow, write, World.draw]⟩
  | _ => exact ⟨0, rfl⟩

theorem Step.lawful (h : Step ids f a f') (hlaw : World.Lawful ids f.world.bare) :
    World.Lawful ids f'.world.bare := by
  by_cases hbase : ∃ action, a = .base action
  · obtain ⟨action, rfl⟩ := hbase
    cases h with
    | base h => exact hlaw.step h.bare
  · have hbase : ∀ action, a ≠ .base action := fun action ha => hbase ⟨action, ha⟩
    obtain ⟨count, heq⟩ := h.world_eq hbase
    have haside := h.issued_aside hbase
    rw [heq]
    exact (same_of_aside haside count).lawful (within_of_aside haside hlaw.schema count) hlaw

theorem lawful_reachable (h : Reachable (step ids) empty f) : World.Lawful ids f.world.bare := by
  refine h.invariant (fun f => World.Lawful ids f.world.bare) ?_ ?_
  · exact World.Lawful.empty ids
  · exact fun s a s' hlaw hstep => (Step.of_step ids hstep).lawful hlaw

end Feed

end GetTogether
