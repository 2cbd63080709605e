import GetTogether.World.Writes

/-! What the screens hold. A held array of members was stored once, or is the
array an accepted prompt has just written; a held user was read from a user record,
and such a record stays. -/
namespace GetTogether

open Realtime Roster

theorem GUser.read_saved (db : Store) (user : GUser) :
    GUser.read (db.applyAll [.setValue ["user", user.userID] user.uploadedUserData])
      ["user", user.userID] = some user := by
  rw [GUser.read_eq_some]
  simp [get_applyAll, GUser.uploadedUserData]

/-- The user has a record with all its fields. -/
def Registered (db : Store) (uid : String) : Prop := (GUser.read db ["user", uid]).isSome = true

theorem Registered.of_get_eq {db db' : Store} {uid : String}
    (hsame : ∀ rest, db'.get ("user" :: uid :: rest) = db.get ("user" :: uid :: rest))
    (h : Registered db uid) : Registered db' uid := by
  unfold Registered GUser.read Store.string? at h ⊢
  simp only [List.cons_append, List.nil_append] at h ⊢
  rwa [hsame, hsame, hsame, hsame]

theorem saved_cases (db : Store) (user : GUser) (uid : String) :
    Registered (db.applyAll [.setValue ["user", user.userID] user.uploadedUserData]) uid ∨
      ∀ rest, (db.applyAll [.setValue ["user", user.userID] user.uploadedUserData]).get
        ("user" :: uid :: rest) = db.get ("user" :: uid :: rest) := by
  by_cases huid : user.userID = uid
  · left
    subst huid
    rw [Registered, GUser.read_saved]
    rfl
  · right
    intro rest
    apply get_applyAll_of_untouched
    simp [huid]

/-- Complete user records stay complete when each is saved again or left alone. -/
theorem registered_of_cases {db db' : Store}
    (hcases : ∀ uid, Registered db' uid ∨
      ∀ rest, db'.get ("user" :: uid :: rest) = db.get ("user" :: uid :: rest))
    (hdb : ∀ uid, db.contains ["user", uid] = true → Registered db uid) (uid : String)
    (huid : db'.contains ["user", uid] = true) : Registered db' uid := by
  rcases hcases uid with hnew | hsame
  · exact hnew
  · apply Registered.of_get_eq hsame
    apply hdb
    rw [Store.contains_iff] at huid ⊢
    obtain ⟨rest, value, hget⟩ := huid
    exact ⟨rest, value, (hsame rest).symm.trans hget⟩

theorem Registered.ne_empty {db : Store} {uid : String} (hdb : db.Within Schema)
    (h : Registered db uid) : uid ≠ "" := by
  obtain ⟨user, hread⟩ := Option.isSome_iff_exists.mp h
  exact (GUser.userID_of_read hdb hread).2

namespace World

variable {ids : AutoId} {w w' : World} {a : Action}

/-- A screen opened from a row holds the stored event and nothing else yet. -/
theorem opened_eq_some {db : Store} {uid eventID : String} {notificationID : Option String}
    {vc : EventContentVC} (h : opened db uid eventID notificationID = some vc) :
    ∃ event notification, Event.read db ["event", eventID] = some event ∧
      vc = { currentUser := uid, event, notification } := by
  cases notificationID with
  | none =>
    simp only [opened, Option.bind_eq_bind, Option.bind_eq_some_iff, Option.pure_def,
      Option.ite_none_right_eq_some, Option.some.injEq] at h
    obtain ⟨event, hevent, -, rfl⟩ := h
    exact ⟨event, none, hevent, rfl⟩
  | some notificationID =>
    simp only [opened, Option.bind_eq_bind, Option.bind_eq_some_iff, Option.pure_def,
      Option.ite_none_right_eq_some, Option.some.injEq] at h
    obtain ⟨event, hevent, notification, -, -, rfl⟩ := h
    exact ⟨event, some notification, hevent, rfl⟩

def Held (w : World) (eventID : String) (memberIDs : List String) : Prop :=
  (∃ vc ∈ w.contentVCs, vc.event.eventID = eventID ∧ vc.event.memberIDs = memberIDs) ∨
    ∃ vc ∈ w.addVCs, ∃ event, vc.event = some event ∧ event.eventID = eventID ∧
      event.memberIDs = memberIDs

theorem Held.content {vc : EventContentVC} (h : vc ∈ w.contentVCs) :
    w.Held vc.event.eventID vc.event.memberIDs := .inl ⟨vc, h, rfl, rfl⟩

theorem Held.add {vc : AddEventVC} {event : Event} (h : vc ∈ w.addVCs)
    (hevent : vc.event = some event) : w.Held event.eventID event.memberIDs :=
  .inr ⟨vc, h, event, hevent, rfl, rfl⟩

/-- A new copy is the stored array or the one an accepted prompt writes. -/
theorem Step.forall_held {P : String → List String → Prop} (h : Step ids w a w')
    (hw : w.db.Within Schema) (hold : ∀ e m, w.Held e m → P e m)
    (hstored : ∀ e m, w.db.array? ["event", e, "memberIDs"] = some m → P e m)
    (hagree : ∀ screen vc, a = .agree screen → w.contentVCs[screen]? = some vc →
      P vc.event.eventID (vc.event.memberIDs ++ [vc.currentUser])) :
    ∀ e m, w'.Held e m → P e m := by
  have hcontent : ∀ vc ∈ w'.contentVCs, P vc.event.eventID vc.event.memberIDs := by
    refine h.forall_content (P := fun vc => P vc.event.eventID vc.event.memberIDs) ?_
      (fun vc hvc => hvc) ?_ ?_ ?_
    · exact fun vc hvc => hold _ _ (.content hvc)
    · intro uid eventID notificationID vc hopen _
      obtain ⟨event, notification, hread, rfl⟩ := opened_eq_some hopen
      obtain rfl := Event.eventID_of_read hw hread
      exact hstored _ _ (Store.array?_eq_some.mpr (Event.read_eq_some.mp hread).2.2.2.1)
    · intro vc vc' hvc hcall
      rw [hcall.event_eq]
      exact hvc
    · exact fun screen vc ha hvc _ => hagree screen vc ha hvc
  have hadd : ∀ vc ∈ w'.addVCs, ∀ event, vc.event = some event →
      P event.eventID event.memberIDs := by
    refine h.forall_add (fun vc hvc event hevent => hold _ _ (.add hvc hevent)) (fun vc hvc => hvc)
      ?_ ?_ ?_
    · intro uid now _ event hevent
      exact absurd hevent nofun
    · intro vc hvc _ event hevent
      obtain rfl := Option.some.inj hevent
      exact hold _ _ (.content hvc)
    · intro vc vc' hvc htap event hevent
      exact hvc event (htap.fixed.2.1 ▸ hevent)
  rintro e m (⟨vc, hvc, rfl, rfl⟩ | ⟨vc, hvc, event, hevent, rfl, rfl⟩)
  · exact hcontent vc hvc
  · exact hadd vc hvc event hevent

theorem Step.mem_memberIDs (h : Step ids w a w') {uid eventID : String}
    (hmem : uid ∈ (tables w'.db).memberIDs eventID) :
    uid = "" ∨ uid ∈ (tables w.db).memberIDs eventID ∨
      (∃ memberIDs, w.Held eventID memberIDs ∧ uid ∈ memberIDs) ∨
      ∃ vc ∈ w.contentVCs, vc.answerSelector.isSome = true ∧ uid = vc.currentUser ∧
        eventID = vc.event.eventID ∧ w.change a = .accept uid eventID vc.event.memberIDs := by
  have hoffered := h.offered
  rw [h.tables_eq] at hmem
  generalize w.change a = change at hmem hoffered ⊢
  cases hoffered with
  | keep => exact .inr (.inl hmem)
  | reject _ _ => exact .inr (.inl hmem)
  | @accept vc hvc hprompt =>
    simp only [Change.apply, Tables.accept, Function.update_apply] at hmem
    split at hmem
    · next he =>
      subst he
      rcases List.mem_append.mp hmem with hmem | hmem
      · exact .inr (.inr (.inl ⟨_, .content hvc, hmem⟩))
      · obtain rfl := List.mem_singleton.mp hmem
        exact .inr (.inr (.inr ⟨vc, hvc, hprompt, rfl, rfl, rfl⟩))
    · exact .inr (.inl hmem)
  | @dropOut vc hvc hmember =>
    simp only [Change.apply, Tables.dropOut, Function.update_apply] at hmem
    split at hmem
    · next he =>
      subst he
      exact .inr (.inr (.inl ⟨_, .content hvc, (List.mem_filter.mp hmem).1⟩))
    · exact .inr (.inl hmem)
  | @submit vc runtime autoID hvc hphase =>
    rcases submission_memberIDs vc runtime (vc.submittedID autoID) eventID (tables w.db) with
      hsame | ⟨rfl, hfinal⟩
    · exact .inr (.inl (hsame ▸ hmem))
    · rw [hfinal] at hmem
      rcases mem_of_mem_finalMemberIDs vc runtime hmem with hempty | ⟨event, hevent, hmem⟩
      · exact .inl hempty
      · refine .inr (.inr (.inl ⟨event.memberIDs, ?_, hmem⟩))
        rw [AddEventVC.submittedID, hevent]
        exact .add hvc hevent

theorem Step.forall_member {P Q : String → String → Prop} (h : Step ids w a w')
    (hw : w.db.Within Schema)
    (hheld : ∀ e m, w.Held e m → ∀ uid ∈ m, uid ≠ "" → P e uid)
    (hstored : ∀ e, ∀ uid ∈ (tables w.db).memberIDs e, uid ≠ "" → P e uid)
    (hkeep : ∀ e uid, P e uid → Q e uid)
    (haccept : ∀ vc ∈ w.contentVCs, vc.answerSelector.isSome = true →
      w.change a = .accept vc.currentUser vc.event.eventID vc.event.memberIDs →
      Q vc.event.eventID vc.currentUser) :
    (∀ e, ∀ uid ∈ (tables w'.db).memberIDs e, uid ≠ "" → Q e uid) ∧
      ∀ e m, w'.Held e m → ∀ uid ∈ m, uid ≠ "" → Q e uid := by
  have hstored' : ∀ e, ∀ uid ∈ (tables w'.db).memberIDs e, uid ≠ "" → Q e uid := by
    intro e uid hmem huid
    rcases h.mem_memberIDs hmem with hempty | hold | ⟨members, hcopy, hmem⟩ |
      ⟨vc, hvc, hprompt, rfl, rfl, hchange⟩
    · exact absurd hempty huid
    · exact hkeep e uid (hstored e uid hold huid)
    · exact hkeep e uid (hheld e members hcopy uid hmem huid)
    · exact haccept vc hvc hprompt hchange
  refine ⟨hstored', h.forall_held hw ?_ ?_ ?_⟩
  · exact fun e m hcopy uid hmem huid => hkeep e uid (hheld e m hcopy uid hmem huid)
  · intro e m hm uid hmem huid
    apply hkeep
    apply hstored e uid _ huid
    simpa [tables, hm] using hmem
  · intro screen vc ha hvc uid hmem huid
    -- The copy of the screen that accepts is the array it has just written.
    apply hstored' _ uid _ huid
    subst ha
    simpa [h.tables_eq, change, hvc, Change.apply, Tables.accept] using hmem

/-! Accounts: a user record, once saved, stays readable, and every user a screen
holds has one. -/

theorem Step.user_cases (h : Step ids w a w') (uid : String) :
    Registered w'.db uid ∨
      ∀ rest, w'.db.get ("user" :: uid :: rest) = w.db.get ("user" :: uid :: rest) := by
  by_cases ha : ∃ user, a = .saveUser user
  · obtain ⟨user, rfl⟩ := ha
    rw [h.db_eq]
    exact saved_cases w.db user uid
  · right
    intro rest
    exact h.get_user (fun user huser => ha ⟨user, huser⟩) (uid :: rest)

theorem Step.registered (h : Step ids w a w') {uid : String} (hr : Registered w.db uid) :
    Registered w'.db uid := by
  rcases h.user_cases uid with hnew | hsame
  · exact hnew
  · exact hr.of_get_eq hsame

structure Accounts (w : World) : Prop where
  stored : ∀ uid, w.db.contains ["user", uid] = true → Registered w.db uid
  content : ∀ vc ∈ w.contentVCs, vc.currentUser ≠ "" ∧
    ∀ user ∈ vc.memberData, Registered w.db user.userID
  add : ∀ vc ∈ w.addVCs, vc.currentUser ≠ "" ∧
    ∀ user ∈ vc.members ++ vc.deletedMembers ++ vc.originalMemers, Registered w.db user.userID

theorem Accounts.empty : Accounts empty where
  stored uid huid := absurd huid (by simp [World.empty, Store.empty, Store.contains])
  content vc hvc := absurd hvc List.not_mem_nil
  add vc hvc := absurd hvc List.not_mem_nil

theorem Accounts.step (hacc : Accounts w) (hw : w.db.Within Schema) (h : Step ids w a w') :
    Accounts w' where
  stored := registered_of_cases h.user_cases hacc.stored
  content := by
    refine h.forall_content hacc.content ?_ ?_ ?_ ?_
    · exact fun vc hvc => ⟨hvc.1, fun user huser => h.registered (hvc.2 user huser)⟩
    · intro uid eventID notificationID vc hopen huid
      obtain ⟨event, notification, -, rfl⟩ := opened_eq_some hopen
      exact ⟨huid, fun user huser => absurd huser List.not_mem_nil⟩
    · intro vc vc' hvc hcall
      refine ⟨hcall.currentUser_eq ▸ hvc.1, fun user huser => ?_⟩
      apply h.registered
      rcases hcall.mem_memberData huser with hold | ⟨⟨uid, hread⟩, -⟩
      · exact hvc.2 user hold
      · rw [(GUser.userID_of_read hw hread).1, Registered, hread]
        rfl
    · exact fun screen vc _ _ hvc => ⟨hvc.1, fun user huser => h.registered (hvc.2 user huser)⟩
  add := by
    refine h.forall_add hacc.add ?_ ?_ ?_ ?_
    · exact fun vc hvc => ⟨hvc.1, fun user huser => h.registered (hvc.2 user huser)⟩
    · exact fun uid now huid => ⟨huid, fun user huser => absurd huser List.not_mem_nil⟩
    · intro vc hvc _
      have hheld := hacc.content vc hvc
      refine ⟨hheld.1, fun user huser => h.registered (hheld.2 user ?_)⟩
      simpa [AddEventVC.editEvent] using huser
    · intro vc vc' hvc htap
      obtain ⟨hcurrent, -, horiginal⟩ := htap.fixed
      refine ⟨hcurrent ▸ hvc.1, fun user huser => h.registered ?_⟩
      rw [List.mem_append, List.mem_append, horiginal] at huser
      have hold : ∀ {list}, user ∈ list → list = vc.members ∨ list = vc.deletedMembers ∨
          list = vc.originalMemers → Registered w.db user.userID := by
        intro list hmem hlist
        apply hvc.2
        rcases hlist with rfl | rfl | rfl <;> simp [hmem]
      rcases huser with (huser | huser) | huser
      · rcases htap.mem_members huser with huser | ⟨-, -, hfound⟩
        · exact hold huser (.inl rfl)
        · exact hacc.stored _ hfound
      · rcases htap.mem_deletedMembers huser with huser | huser
        · exact hold huser (.inr (.inl rfl))
        · exact hold huser (.inl rfl)
      · exact hold huser (.inr (.inr rfl))

theorem accounts_reachable (h : Reachable (step ids) World.empty w) : Accounts w := by
  refine (h.invariant (fun w => w.db.Within Schema ∧ Accounts w)
    ⟨Store.Within.empty Schema, Accounts.empty⟩ ?_).2
  intro s a s' ⟨hw, hacc⟩ hstep
  have hstep := Step.of_step ids hstep
  exact ⟨hstep.db_eq ▸ hw.applyAll hstep.issued_within, hacc.step hw hstep⟩

end World

end GetTogether
