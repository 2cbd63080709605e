import GetTogether.World

/-! Invariant rules for the interleaved system. A step changes the membership
tables by one `Change`, and changes at most one screen: by a callback, by a tap,
or by opening it. -/
namespace GetTogether

open Realtime Roster

namespace EventContentVC

/-- A callback on the event screen, or the prompt going away unanswered. -/
inductive Callback (db : Store) (vc : EventContentVC) : EventContentVC → Prop
  | eventList {vc' : EventContentVC} : vc.queryEventList db = some vc' → Callback db vc vc'
  | user {vc' : EventContentVC} {eventList : EventList} {time notificationID : String} :
      eventList ∈ vc.userFetches →
      vc.userFetched db eventList time notificationID = some vc' → Callback db vc vc'
  | users {vc' : EventContentVC} : vc.queryUserData db = some vc' → Callback db vc vc'
  | rejected : Callback db vc vc.rejected

theorem mem_readEventLists {db : Store} {uid : String} {lists : List EventList} {list : EventList}
    (h : readEventLists db uid = some lists) (hlist : list ∈ lists) :
    ∃ key, EventList.read db ["invitingEventList", uid, key] = some list := by
  obtain ⟨key, -, hkey⟩ := (mem_mapM_iff h list).mp hlist
  exact ⟨key, hkey⟩

variable {db : Store} {vc vc' : EventContentVC}

theorem queryEventList_eq_some (h : vc.queryEventList db = some vc') :
    ∃ lists, readEventLists db vc.currentUser = some lists ∧
      vc' = { vc with userFetches := vc.userFetches ++ lists } := by
  simp only [queryEventList, Option.bind_eq_bind, Option.bind_eq_some_iff, Option.pure_def,
    Option.some.injEq] at h
  obtain ⟨lists, hlists, rfl⟩ := h
  exact ⟨lists, hlists, rfl⟩

theorem userFetched_eq_some {eventList : EventList} {time notificationID : String}
    (h : vc.userFetched db eventList time notificationID = some vc') :
    vc' = vc ∨
      (∃ user, GUser.read db ["user", vc.currentUser] = some user ∧
        eventList.eventID = vc.event.eventID ∧ eventList.isReply = false ∧
        vc' = vc.showAnwserSelector user time notificationID) ∨
      vc' = { vc with noLongerMember := true } := by
  unfold userFetched at h
  split at h
  · simp only [Option.bind_eq_bind, Option.bind_eq_some_iff] at h
    obtain ⟨user, huser, h⟩ := h
    split at h
    · next hmatch => exact .inr (.inl ⟨user, huser, hmatch.1, hmatch.2, (Option.some.inj h).symm⟩)
    · split at h
      · exact .inr (.inr (Option.some.inj h).symm)
      · exact .inl (Option.some.inj h).symm
  · exact .inl (Option.some.inj h).symm

theorem userFetched_noLongerMember {eventList : EventList} {time notificationID : String}
    (h : vc.userFetched db eventList time notificationID = some vc')
    (hflag : vc'.noLongerMember = true) :
    vc.noLongerMember = true ∨
      eventList.eventID = vc.event.eventID ∧ eventList.isMember = false := by
  unfold userFetched at h
  split at h
  · simp only [Option.bind_eq_bind, Option.bind_eq_some_iff] at h
    obtain ⟨user, -, h⟩ := h
    split at h
    · obtain rfl := Option.some.inj h
      exact .inl hflag
    · split at h
      · next hmember => exact .inr hmember
      · obtain rfl := Option.some.inj h
        exact .inl hflag
  · obtain rfl := Option.some.inj h
    exact .inl hflag

/-- `memberData` afterwards: the users of the snapshot that the held event names,
unless the organiser has no record. -/
theorem queryUserData_eq_some (h : vc.queryUserData db = some vc') :
    ∃ users, ((db.children ["user"]).mapM fun uid => GUser.read db ["user", uid]) = some users ∧
      ((users.any (·.userID = vc.event.organiserID) = true ∧
        vc' = { vc with memberData := users.filter (·.userID ∈ vc.event.memberIDs) }) ∨
      (users.any (·.userID = vc.event.organiserID) = false ∧ vc' = vc)) := by
  simp only [queryUserData, Option.bind_eq_bind, Option.bind_eq_some_iff] at h
  obtain ⟨users, husers, h⟩ := h
  refine ⟨users, husers, ?_⟩
  split at h
  · next horganiser => exact .inl ⟨horganiser, (Option.some.inj h).symm⟩
  · next horganiser => exact .inr ⟨by simpa using horganiser, (Option.some.inj h).symm⟩

namespace Callback

theorem fixed (h : Callback db vc vc') :
    vc'.event = vc.event ∧ vc'.currentUser = vc.currentUser := by
  cases h with
  | eventList h =>
    obtain ⟨lists, -, rfl⟩ := queryEventList_eq_some h
    exact ⟨rfl, rfl⟩
  | user _ h =>
    obtain rfl | ⟨user, -, -, -, rfl⟩ | rfl := userFetched_eq_some h <;> exact ⟨rfl, rfl⟩
  | users h =>
    obtain ⟨users, -, ⟨-, rfl⟩ | ⟨-, rfl⟩⟩ := queryUserData_eq_some h <;> exact ⟨rfl, rfl⟩
  | rejected => exact ⟨rfl, rfl⟩

theorem event_eq (h : Callback db vc vc') : vc'.event = vc.event := h.fixed.1

theorem currentUser_eq (h : Callback db vc vc') : vc'.currentUser = vc.currentUser := h.fixed.2

theorem mem_memberData (h : Callback db vc vc') {user : GUser} (huser : user ∈ vc'.memberData) :
    user ∈ vc.memberData ∨
      (∃ uid, GUser.read db ["user", uid] = some user) ∧ user.userID ∈ vc.event.memberIDs := by
  cases h with
  | eventList h =>
    obtain ⟨lists, -, rfl⟩ := queryEventList_eq_some h
    exact .inl huser
  | user _ h =>
    obtain rfl | ⟨user, -, -, -, rfl⟩ | rfl := userFetched_eq_some h <;> exact .inl huser
  | users h =>
    obtain ⟨users, husers, ⟨-, rfl⟩ | ⟨-, rfl⟩⟩ := queryUserData_eq_some h
    · obtain ⟨hmem, hmember⟩ := List.mem_filter.mp huser
      obtain ⟨uid, -, hread⟩ := (mem_mapM_iff husers user).mp hmem
      exact .inr ⟨⟨uid, hread⟩, of_decide_eq_true hmember⟩
    · exact .inl huser
  | rejected => exact .inl huser

theorem mem_userFetches (h : Callback db vc vc') {list : EventList}
    (hlist : list ∈ vc'.userFetches) : list ∈ vc.userFetches ∨
      ∃ key, EventList.read db ["invitingEventList", vc.currentUser, key] = some list := by
  cases h with
  | eventList h =>
    obtain ⟨lists, hlists, rfl⟩ := queryEventList_eq_some h
    rcases List.mem_append.mp hlist with hold | hnew
    · exact .inl hold
    · exact .inr (mem_readEventLists hlists hnew)
  | user _ h =>
    obtain rfl | ⟨user, -, -, -, rfl⟩ | rfl := userFetched_eq_some h <;> exact .inl hlist
  | users h =>
    obtain ⟨users, -, ⟨-, rfl⟩ | ⟨-, rfl⟩⟩ := queryUserData_eq_some h <;> exact .inl hlist
  | rejected => exact .inl hlist

theorem answerSelector_isSome (h : Callback db vc vc') (hprompt : vc'.answerSelector.isSome) :
    vc.answerSelector.isSome ∨
      ∃ list ∈ vc.userFetches, list.eventID = vc.event.eventID ∧ list.isReply = false := by
  cases h with
  | eventList h =>
    obtain ⟨lists, -, rfl⟩ := queryEventList_eq_some h
    exact .inl hprompt
  | user hfetch h =>
    obtain rfl | ⟨user, -, heq, hreply, rfl⟩ | rfl := userFetched_eq_some h
    · exact .inl hprompt
    · exact .inr ⟨_, hfetch, heq, hreply⟩
    · exact .inl hprompt
  | users h =>
    obtain ⟨users, -, ⟨-, rfl⟩ | ⟨-, rfl⟩⟩ := queryUserData_eq_some h <;> exact .inl hprompt
  | rejected => simp [EventContentVC.rejected] at hprompt

end Callback

end EventContentVC

namespace AddEventVC

/-- A tap or a callback on the edit screen, or its submission being over. -/
inductive Tap (db : Store) (vc : AddEventVC) : AddEventVC → Prop
  | organiser {vc' : AddEventVC} : vc.queryOrganiserData db = some vc' → Tap db vc vc'
  | add {user : GUser} : db.contains ["user", user.userID] = true → user.userID ≠ "" →
      Tap db vc (vc.didUpdateMember user)
  | delete {item : Nat} {vc' : AddEventVC} : vc.deleteData item = some vc' → Tap db vc vc'
  | form {form : Form} : Tap db vc { vc with form }
  | done {autoID : String} : Tap db vc (vc.done autoID)
  | finished : Tap db vc { vc with phase := .finished }

variable {db : Store} {vc vc' : AddEventVC}

theorem queryOrganiserData_cases (h : vc.queryOrganiserData db = some vc') :
    vc' = vc ∨ ∃ user, vc' = { vc with user := some user } := by
  unfold queryOrganiserData at h
  split at h
  · simp only [Option.bind_eq_bind, Option.bind_eq_some_iff, Option.pure_def,
      Option.some.injEq] at h
    obtain ⟨email, -, name, -, url, -, rfl⟩ := h
    exact .inr ⟨_, rfl⟩
  · exact .inl (Option.some.inj h).symm

theorem queryOrganiserData_eq_some (h : vc.queryOrganiserData db = some vc') :
    ∃ user, vc' = { vc with user } := by
  rcases queryOrganiserData_cases h with rfl | ⟨user, rfl⟩
  · exact ⟨vc'.user, rfl⟩
  · exact ⟨some user, rfl⟩

theorem didUpdateMember_eq (vc : AddEventVC) (user : GUser) : vc.didUpdateMember user = vc ∨
    (user.userID ≠ vc.currentUser ∧ user.userID ∉ vc.members.map (·.userID) ∧
      vc.didUpdateMember user = { vc with members := user :: vc.members }) := by
  unfold didUpdateMember
  split
  · exact .inl rfl
  · next hself =>
    split
    · exact .inl rfl
    · next hmember =>
      refine .inr ⟨hself, ?_, rfl⟩
      simpa using hmember

theorem deleteData_eq_some {item : Nat} (h : vc.deleteData item = some vc') :
    ∃ removed, vc.members[item]? = some removed ∧ vc' = { vc with
      members := vc.members.eraseIdx item
      deletedMembers := if vc.isEdit then vc.deletedMembers ++ [removed]
        else vc.deletedMembers } := by
  simp only [deleteData, Option.bind_eq_bind, Option.bind_eq_some_iff, Option.pure_def,
    Option.some.injEq] at h
  obtain ⟨removed, hremoved, rfl⟩ := h
  exact ⟨removed, hremoved, rfl⟩

theorem done_eq (vc : AddEventVC) (autoID : String) : ∃ phase, vc.done autoID = { vc with phase } := by
  unfold done
  split
  · exact ⟨_, rfl⟩
  · exact ⟨vc.phase, rfl⟩

namespace Tap

theorem fixed (h : Tap db vc vc') : vc'.currentUser = vc.currentUser ∧ vc'.event = vc.event ∧
    vc'.originalMemers = vc.originalMemers := by
  cases h with
  | organiser h =>
    obtain ⟨user, rfl⟩ := queryOrganiserData_eq_some h
    exact ⟨rfl, rfl, rfl⟩
  | @add user _ _ =>
    obtain h | ⟨-, -, h⟩ := didUpdateMember_eq vc user <;>
      · rw [h]
        exact ⟨rfl, rfl, rfl⟩
  | delete h =>
    obtain ⟨removed, -, rfl⟩ := deleteData_eq_some h
    exact ⟨rfl, rfl, rfl⟩
  | form => exact ⟨rfl, rfl, rfl⟩
  | @done autoID =>
    obtain ⟨phase, h⟩ := done_eq vc autoID
    rw [h]
    exact ⟨rfl, rfl, rfl⟩
  | finished => exact ⟨rfl, rfl, rfl⟩

theorem user_isSome (h : Tap db vc vc') (hvc : vc.user.isSome = true) :
    vc'.user.isSome = true := by
  cases h with
  | organiser h =>
    rcases queryOrganiserData_cases h with rfl | ⟨user, rfl⟩
    · exact hvc
    · rfl
  | @add user _ _ =>
    obtain h | ⟨-, -, h⟩ := didUpdateMember_eq vc user <;>
      · rw [h]
        exact hvc
  | delete h =>
    obtain ⟨removed, -, rfl⟩ := deleteData_eq_some h
    exact hvc
  | form => exact hvc
  | @done autoID =>
    obtain ⟨phase, h⟩ := done_eq vc autoID
    rw [h]
    exact hvc
  | finished => exact hvc

theorem mem_members (h : Tap db vc vc') {user : GUser} (huser : user ∈ vc'.members) :
    user ∈ vc.members ∨ (user.userID ≠ "" ∧ user.userID ≠ vc.currentUser ∧
      db.contains ["user", user.userID] = true) := by
  cases h with
  | organiser h =>
    obtain ⟨organiser, rfl⟩ := queryOrganiserData_eq_some h
    exact .inl huser
  | @add found hfound hid =>
    obtain h | ⟨hself, -, h⟩ := didUpdateMember_eq vc found
    · exact .inl (h ▸ huser)
    · rw [h] at huser
      rcases List.mem_cons.mp huser with rfl | huser
      · exact .inr ⟨hid, hself, hfound⟩
      · exact .inl huser
  | delete h =>
    obtain ⟨removed, -, rfl⟩ := deleteData_eq_some h
    exact .inl (List.mem_of_mem_eraseIdx huser)
  | form => exact .inl huser
  | @done autoID =>
    obtain ⟨phase, h⟩ := done_eq vc autoID
    exact .inl (by simpa [h] using huser)
  | finished => exact .inl huser

theorem mem_deletedMembers (h : Tap db vc vc') {user : GUser}
    (huser : user ∈ vc'.deletedMembers) : user ∈ vc.deletedMembers ∨ user ∈ vc.members := by
  cases h with
  | organiser h =>
    obtain ⟨organiser, rfl⟩ := queryOrganiserData_eq_some h
    exact .inl huser
  | @add found hfound hid =>
    obtain h | ⟨hself, -, h⟩ := didUpdateMember_eq vc found <;>
      exact .inl (by simpa [h] using huser)
  | delete h =>
    obtain ⟨removed, hremoved, rfl⟩ := deleteData_eq_some h
    dsimp only at huser
    split at huser
    · rcases List.mem_append.mp huser with huser | huser
      · exact .inl huser
      · exact .inr (List.mem_singleton.mp huser ▸ List.mem_of_getElem? hremoved)
    · exact .inl huser
  | form => exact .inl huser
  | @done autoID =>
    obtain ⟨phase, h⟩ := done_eq vc autoID
    exact .inl (by simpa [h] using huser)
  | finished => exact .inl huser

end Tap

end AddEventVC

namespace World

def change (w : World) : Action → Change String String
  | .agree screen => match w.contentVCs[screen]? with
    | some vc => .accept vc.currentUser vc.event.eventID vc.event.memberIDs
    | none => .keep
  | .reject screen => match w.contentVCs[screen]? with
    | some vc => .reject vc.currentUser vc.event.eventID
    | none => .keep
  | .dropOut screen _ => match w.contentVCs[screen]? with
    | some vc => .dropOut vc.currentUser vc.event.eventID vc.event.memberIDs
    | none => .keep
  | .uploaded screen runtime _ _ => match w.addVCs[screen]? with
    | some vc => match vc.phase with
      | .uploading autoID => submission vc runtime (vc.submittedID autoID)
      | _ => .keep
    | none => .keep
  | _ => .keep

/-- Which changes a state offers: each is made by a screen from what it holds. -/
inductive Offered (w : World) : Change String String → Prop
  | keep : Offered w .keep
  | accept {vc : EventContentVC} : vc ∈ w.contentVCs → vc.answerSelector.isSome = true →
      Offered w (.accept vc.currentUser vc.event.eventID vc.event.memberIDs)
  | reject {vc : EventContentVC} : vc ∈ w.contentVCs → vc.answerSelector.isSome = true →
      Offered w (.reject vc.currentUser vc.event.eventID)
  | dropOut {vc : EventContentVC} : vc ∈ w.contentVCs → vc.currentUser ∈ vc.event.memberIDs →
      Offered w (.dropOut vc.currentUser vc.event.eventID vc.event.memberIDs)
  | submit {vc : AddEventVC} (runtime : Runtime) {autoID : String} : vc ∈ w.addVCs →
      vc.phase = .uploading autoID →
      Offered w (submission vc runtime (vc.submittedID autoID))

theorem saveUser_makes (user : GUser) :
    List.Forall₂ Makes [.setValue ["user", user.userID] user.uploadedUserData]
      (Change.keep : Change String String).edits :=
  .cons (makes_keep (by simp [Write.Apart])) .nil

theorem tables_saveUser (db : Store) (user : GUser) :
    tables (db.applyAll [.setValue ["user", user.userID] user.uploadedUserData]) = tables db := by
  rw [tables_of_makes (saveUser_makes user), Change.applyAll_edits, Change.apply]

namespace Step

variable {ids : AutoId} {w w' : World} {a : Action}

/-- Every action refines its change of the membership tables. -/
theorem tables_eq (h : Step ids w a w') : tables w'.db = (w.change a).apply (tables w.db) := by
  cases h with
  | saveUser _ => exact tables_saveUser w.db _
  | agree hvc hprompt =>
    simp only [change, hvc, Change.apply]
    exact tables_agree w.db _ _
  | reject hvc hprompt hnotification =>
    simp only [change, hvc, Change.apply]
    exact tables_reject w.db _ _ hnotification
  | dropOut hvc _ _ =>
    simp only [change, hvc, Change.apply]
    exact tables_dropOut w.db _ _ _
  | uploaded hvc hphase =>
    simp only [change, hvc, hphase]
    exact tables_uploadEventData _ _ _ _ w.db _ _ _
  | _ => rfl

theorem offered (h : Step ids w a w') : Offered w (w.change a) := by
  cases h with
  | agree hvc hprompt =>
    simp only [change, hvc]
    exact .accept (List.mem_of_getElem? hvc) (Option.isSome_of_eq_some hprompt)
  | reject hvc hprompt _ =>
    simp only [change, hvc]
    exact .reject (List.mem_of_getElem? hvc) (Option.isSome_of_eq_some hprompt)
  | dropOut hvc _ hmember =>
    simp only [change, hvc]
    exact .dropOut (List.mem_of_getElem? hvc) hmember
  | uploaded hvc hphase =>
    simp only [change, hvc, hphase]
    exact .submit _ (List.mem_of_getElem? hvc) hphase
  | _ => exact .keep

/-- A property of all event screens survives a step when it survives the change of
the database, holds of opened screens, and survives callbacks and the answer yes. -/
theorem forall_content {P P' : EventContentVC → Prop} (h : Step ids w a w')
    (hold : ∀ vc ∈ w.contentVCs, P vc) (hkeep : ∀ vc, P vc → P' vc)
    (hopen : ∀ uid eventID notificationID vc,
      opened w.db uid eventID notificationID = some vc → uid ≠ "" → P' vc)
    (hcall : ∀ vc vc', P vc → vc.Callback w.db vc' → P' vc')
    (hagree : ∀ screen vc, a = .agree screen → w.contentVCs[screen]? = some vc → P vc →
      P' vc.agreed) : ∀ vc ∈ w'.contentVCs, P' vc := by
  have hset : ∀ screen new, P' new → ∀ vc ∈ w.contentVCs.set screen new, P' vc := by
    intro screen new hnew vc hvc
    rcases List.mem_or_eq_of_mem_set hvc with hvc | rfl
    · exact hkeep vc (hold vc hvc)
    · exact hnew
  have hmem : ∀ {screen vc}, w.contentVCs[screen]? = some vc → P vc := fun hvc =>
    hold _ (List.mem_of_getElem? hvc)
  cases h with
  | openEvent hvc huid =>
    intro vc hmemvc
    rcases List.mem_append.mp hmemvc with hvc' | hvc'
    · exact hkeep vc (hold vc hvc')
    · exact List.mem_singleton.mp hvc' ▸ hopen _ _ _ _ hvc huid
  | queryEventList hvc h => exact hset _ _ (hcall _ _ (hmem hvc) (.eventList h))
  | userFetched hvc hlist h =>
    exact hset _ _ (hcall _ _ (hmem hvc) (.user (List.mem_of_getElem? hlist) h))
  | queryUserData hvc h => exact hset _ _ (hcall _ _ (hmem hvc) (.users h))
  | agree hvc hprompt => exact hset _ _ (hagree _ _ rfl hvc (hmem hvc))
  | reject hvc hprompt hnotification => exact hset _ _ (hcall _ _ (hmem hvc) .rejected)
  | _ => exact fun vc hvc => hkeep vc (hold vc hvc)

theorem forall_add {P P' : AddEventVC → Prop} (h : Step ids w a w')
    (hold : ∀ vc ∈ w.addVCs, P vc) (hkeep : ∀ vc, P vc → P' vc)
    (hnew : ∀ uid now, uid ≠ "" → P' (.newEvent uid now))
    (hedit : ∀ vc ∈ w.contentVCs, vc.currentUser = vc.event.organiserID → P' (.editEvent vc))
    (htap : ∀ vc vc', P vc → vc.Tap w.db vc' → P' vc') : ∀ vc ∈ w'.addVCs, P' vc := by
  have hset : ∀ screen new, P' new → ∀ vc ∈ w.addVCs.set screen new, P' vc := by
    intro screen new hnew vc hvc
    rcases List.mem_or_eq_of_mem_set hvc with hvc | rfl
    · exact hkeep vc (hold vc hvc)
    · exact hnew
  have happend : ∀ new, P' new → ∀ vc ∈ w.addVCs ++ [new], P' vc := by
    intro new hnew vc hvc
    rcases List.mem_append.mp hvc with hvc | hvc
    · exact hkeep vc (hold vc hvc)
    · exact List.mem_singleton.mp hvc ▸ hnew
  have hmem : ∀ {screen vc}, w.addVCs[screen]? = some vc → P vc := fun hvc =>
    hold _ (List.mem_of_getElem? hvc)
  cases h with
  | newEvent huid => exact happend _ (hnew _ _ huid)
  | editEvent hvc hoffer => exact happend _ (hedit _ (List.mem_of_getElem? hvc) hoffer)
  | queryOrganiserData hvc h => exact hset _ _ (htap _ _ (hmem hvc) (.organiser h))
  | didUpdateMember hvc _ hfound huser => exact hset _ _ (htap _ _ (hmem hvc) (.add hfound huser))
  | deleteData hvc _ h => exact hset _ _ (htap _ _ (hmem hvc) (.delete h))
  | fillIn hvc _ => exact hset _ _ (htap _ _ (hmem hvc) .form)
  | done hvc _ => exact hset _ _ (htap _ _ (hmem hvc) .done)
  | uploaded hvc _ => exact hset _ _ (htap _ _ (hmem hvc) .finished)
  | _ => exact fun vc hvc => hkeep vc (hold vc hvc)

end Step

end World

end GetTogether
