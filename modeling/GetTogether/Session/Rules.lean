import GetTogether.Roster.Invitations
import GetTogether.Session

/-! What each operation does to the membership tables. The screens were opened on the
database the operation writes to, so the arrays they hold are the stored ones. -/
namespace GetTogether

open Realtime Roster

namespace EventContentVC

variable {db : Store} {vc vc' : EventContentVC} {time notificationID : String}

/-- While the fetches come back the screen stays on its event, and a prompt comes
from an unanswered record of that event. -/
theorem foldlM_userFetched {lists : List EventList}
    (h : lists.foldlM (fun vc eventList => vc.userFetched db eventList time notificationID) vc =
      some vc') :
    vc'.event = vc.event ∧ vc'.currentUser = vc.currentUser ∧ vc'.notification = vc.notification ∧
      (vc'.answerSelector.isSome = true → vc.answerSelector.isSome = true ∨
        ∃ list ∈ lists, list.eventID = vc.event.eventID ∧ list.isReply = false) := by
  induction lists generalizing vc with
  | nil =>
    obtain rfl := Option.some.inj h
    exact ⟨rfl, rfl, rfl, .inl⟩
  | cons list lists ih =>
    simp only [List.foldlM_cons, Option.bind_eq_bind, Option.bind_eq_some_iff] at h
    obtain ⟨mid, hmid, h⟩ := h
    obtain ⟨hevent, huser, hnotification, hprompt⟩ := ih h
    rcases userFetched_eq_some hmid with rfl | ⟨user, -, heq, hreply, rfl⟩ | rfl
    · refine ⟨hevent, huser, hnotification, fun hsome => ?_⟩
      rcases hprompt hsome with hold | ⟨other, hother, hmatch⟩
      · exact .inl hold
      · exact .inr ⟨other, List.mem_cons_of_mem list hother, hmatch⟩
    · exact ⟨hevent, huser, hnotification, fun _ => .inr ⟨list, List.mem_cons_self, heq, hreply⟩⟩
    · refine ⟨hevent, huser, hnotification, fun hsome => ?_⟩
      rcases hprompt hsome with hold | ⟨other, hother, hmatch⟩
      · exact .inl hold
      · exact .inr ⟨other, List.mem_cons_of_mem list hother, hmatch⟩

theorem foldlM_noLongerMember {lists : List EventList}
    (h : lists.foldlM (fun vc eventList => vc.userFetched db eventList time notificationID) vc =
      some vc') (hflag : vc'.noLongerMember = true) :
    vc.noLongerMember = true ∨
      ∃ list ∈ lists, list.eventID = vc.event.eventID ∧ list.isMember = false := by
  induction lists generalizing vc with
  | nil => exact .inl (Option.some.inj h ▸ hflag)
  | cons list lists ih =>
    simp only [List.foldlM_cons, Option.bind_eq_bind, Option.bind_eq_some_iff] at h
    obtain ⟨mid, hmid, h⟩ := h
    have hevent : mid.event = vc.event := by
      rcases userFetched_eq_some hmid with rfl | ⟨user, -, -, -, rfl⟩ | rfl <;> rfl
    rcases ih h with hmidFlag | ⟨other, hother, hmatch⟩
    · rcases userFetched_noLongerMember hmid hmidFlag with hold | hmatch
      · exact .inl hold
      · exact .inr ⟨list, List.mem_cons_self, hmatch⟩
    · exact .inr ⟨other, List.mem_cons_of_mem list hother, hevent ▸ hmatch⟩

theorem loaded_noLongerMember (hdb : db.Within Schema) {uid : String} {event : Event}
    {notification : Option GNotification}
    (h : loaded { currentUser := uid, event, notification } db time notificationID = some vc')
    (hflag : vc'.noLongerMember = true) :
    db.bool? ["invitingEventList", uid, event.eventID, "isMember"] = some false := by
  simp only [loaded, Option.bind_eq_bind, Option.bind_eq_some_iff] at h
  obtain ⟨queried, hqueried, fetched, hfetched, h⟩ := h
  obtain ⟨lists, hlists, rfl⟩ := queryEventList_eq_some hqueried
  have hfetchedFlag : fetched.noLongerMember = true := by
    obtain ⟨users, -, ⟨-, rfl⟩ | ⟨-, rfl⟩⟩ := queryUserData_eq_some h <;> exact hflag
  rcases foldlM_noLongerMember hfetched hfetchedFlag with hold | ⟨list, hlist, heq, hmember⟩
  · exact absurd hold (by simp)
  · obtain ⟨key, hkey⟩ := mem_readEventLists hlists hlist
    rw [Store.bool?_eq_some, ← heq, EventList.eventID_of_read hdb hkey, ← hmember]
    exact (EventList.read_eq_some.mp hkey).2.2

/-- A loaded screen is on the event it was opened with, and prompts only a user whose
invitation to it is unanswered. -/
theorem loaded_eq_some (hdb : db.Within Schema) {uid : String} {event : Event}
    {notification : Option GNotification}
    (h : loaded { currentUser := uid, event, notification } db time notificationID = some vc') :
    vc'.event = event ∧ vc'.currentUser = uid ∧ vc'.notification = notification ∧
      (vc'.answerSelector.isSome = true →
        db.bool? ["invitingEventList", uid, event.eventID, "isReply"] = some false) := by
  simp only [loaded, Option.bind_eq_bind, Option.bind_eq_some_iff] at h
  obtain ⟨queried, hqueried, fetched, hfetched, h⟩ := h
  obtain ⟨lists, hlists, rfl⟩ := queryEventList_eq_some hqueried
  obtain ⟨hevent, huser, hnotification, hprompt⟩ := foldlM_userFetched hfetched
  have hread : fetched.answerSelector.isSome = true →
      db.bool? ["invitingEventList", uid, event.eventID, "isReply"] = some false := by
    intro hsome
    rcases hprompt hsome with hold | ⟨list, hlist, heq, hreply⟩
    · exact absurd hold (by simp)
    · obtain ⟨key, hkey⟩ := mem_readEventLists hlists hlist
      rw [Store.bool?_eq_some, ← heq, EventList.eventID_of_read hdb hkey, ← hreply]
      exact (EventList.read_eq_some.mp hkey).2.1
  obtain ⟨users, -, ⟨-, rfl⟩ | ⟨-, rfl⟩⟩ := queryUserData_eq_some h <;>
    exact ⟨hevent, huser, hnotification, hread⟩

theorem mem_snapshot (hdb : db.Within Schema) {users : List GUser}
    (h : ((db.children ["user"]).mapM fun uid => GUser.read db ["user", uid]) = some users)
    {uid : String} (huid : Registered db uid) : ∃ user ∈ users, user.userID = uid := by
  obtain ⟨user, hread⟩ := Option.isSome_iff_exists.mp huid
  refine ⟨user, (mem_mapM_iff h user).mpr ⟨uid, ?_, hread⟩, (GUser.userID_of_read hdb hread).1⟩
  rw [Store.mem_children_iff_contains, Store.contains_iff]
  exact ⟨["userID"], _, (GUser.read_eq_some.mp hread).1⟩

/-- A loaded screen lists all registered members, if the organiser is registered. -/
theorem loaded_memberData (hdb : db.Within Schema) {uid : String} {event : Event}
    {notification : Option GNotification}
    (h : loaded { currentUser := uid, event, notification } db time notificationID = some vc')
    (horganiser : Registered db event.organiserID) {member : String}
    (hmember : member ∈ event.memberIDs) (hregistered : Registered db member) :
    member ∈ vc'.memberData.map (·.userID) := by
  simp only [loaded, Option.bind_eq_bind, Option.bind_eq_some_iff] at h
  obtain ⟨queried, hqueried, fetched, hfetched, h⟩ := h
  obtain ⟨lists, -, rfl⟩ := queryEventList_eq_some hqueried
  have hevent := (foldlM_userFetched hfetched).1
  obtain ⟨users, husers, ⟨-, rfl⟩ | ⟨hnone, -⟩⟩ := queryUserData_eq_some h
  · obtain ⟨user, huser, rfl⟩ := mem_snapshot hdb husers hregistered
    apply List.mem_map_of_mem
    apply List.mem_filter.mpr
    exact ⟨huser, by simpa [hevent] using hmember⟩
  · obtain ⟨user, huser, hid⟩ := mem_snapshot hdb husers horganiser
    have hfound : users.any (·.userID = fetched.event.organiserID) = true :=
      List.any_eq_true.mpr ⟨user, huser, by simp [hid, hevent]⟩
    exact absurd (hfound.symm.trans hnone) nofun

end EventContentVC

namespace AddEventVC

theorem tapped_invariant (P : AddEventVC → Prop) {db : Store}
    (htap : ∀ vc vc', P vc → vc.Tap db vc' → P vc') {vc vc' : AddEventVC} (hvc : P vc)
    {taps : List MemberTap} (h : vc.tapped db taps = some vc') : P vc' := by
  induction taps generalizing vc with
  | nil => exact Option.some.inj h ▸ hvc
  | cons tap taps ih =>
    cases tap with
    | add user =>
      simp only [tapped, Option.ite_none_right_eq_some] at h
      exact ih (htap _ _ hvc (.add h.1.1 h.1.2)) h.2
    | delete item =>
      simp only [tapped, Option.bind_eq_some_iff] at h
      obtain ⟨mid, hmid, h⟩ := h
      exact ih (htap _ _ hvc (.delete hmid)) h

/-- The organiser's record was found under the organiser's own id. -/
theorem organiserLoaded_eq_some {db : Store} {vc vc' : AddEventVC}
    (h : vc.organiserLoaded db = some vc') (hvc : vc.user = none) :
    (∃ user, vc' = { vc with user := some user }) ∧
      db.contains ["user", vc.currentUser] = true := by
  simp only [organiserLoaded, Option.filter_eq_some_iff] at h
  obtain ⟨hquery, hloaded⟩ := h
  obtain ⟨user, rfl⟩ := queryOrganiserData_eq_some hquery
  obtain ⟨found, hfound⟩ := Option.isSome_iff_exists.mp hloaded
  have huser : user = some found := hfound
  subst huser
  refine ⟨⟨found, rfl⟩, ?_⟩
  unfold queryOrganiserData at hquery
  split at hquery
  · next hnode => exact hnode
  · have hsame : vc.user = some found := congrArg AddEventVC.user (Option.some.inj hquery)
    exact absurd (hvc.symm.trans hsame) nofun

end AddEventVC

namespace Session

variable {ids : AutoId} {s s' : Session}

theorem opened_eq_some {uid eventID : String} {notificationID : Option String}
    {vc : EventContentVC} (h : s.opened uid eventID notificationID = some vc) :
    uid ≠ "" ∧ ∃ event notification, Event.read s.db ["event", eventID] = some event ∧
      vc = { currentUser := uid, event, notification } := by
  simp only [opened, Option.filter_eq_some_iff, decide_eq_true_eq] at h
  exact ⟨h.2, World.opened_eq_some h.1⟩

structure Editing (s : Session) (uid eventID : String) (membersLoaded : Bool)
    (vc : AddEventVC) : Prop where
  currentUser : vc.currentUser = uid
  event : ∃ event, Event.read s.db ["event", eventID] = some event ∧ vc.event = some event ∧
    event.organiserID = uid
  user : vc.user.isSome = true
  /-- A listed member was there from the start, or was found by the search. -/
  members : ∀ user ∈ vc.members, user ∈ vc.originalMemers ∨
    user.userID ≠ "" ∧ user.userID ≠ uid ∧ s.db.contains ["user", user.userID] = true
  /-- Once the members are loaded, the registered ones were all there from the start. -/
  loaded : membersLoaded = true → ∀ event, vc.event = some event → ∀ user ∈ event.memberIDs,
    Registered s.db user → user ∈ vc.originalMemers.map (·.userID)

structure Creating (s : Session) (uid : String) (vc : AddEventVC) : Prop where
  currentUser : vc.currentUser = uid
  event : vc.event = none
  user : vc.user.isSome = true
  members : ∀ user ∈ vc.members,
    user.userID ≠ "" ∧ user.userID ≠ uid ∧ s.db.contains ["user", user.userID] = true

theorem Editing.edited {uid eventID : String} {membersLoaded : Bool} {vc : AddEventVC}
    (hvc : Editing s uid eventID membersLoaded vc) (runtime : Runtime) {invited : String}
    (h : invited ∈ editedIDs vc runtime) :
    invited ≠ "" ∧ invited ≠ uid ∧ s.db.contains ["user", invited] = true := by
  obtain ⟨hmember, -, horiginal⟩ := mem_editedIDs vc runtime h
  obtain ⟨user, huser, rfl⟩ := List.mem_map.mp hmember
  rcases hvc.members user huser with hold | hfound
  · exact absurd (List.mem_map_of_mem hold) horiginal
  · exact hfound

theorem Creating.edited {uid : String} {vc : AddEventVC} (hvc : Creating s uid vc)
    (runtime : Runtime) {invited : String} (h : invited ∈ editedIDs vc runtime) :
    invited ≠ "" ∧ invited ≠ uid ∧ s.db.contains ["user", invited] = true := by
  obtain ⟨user, huser, rfl⟩ := List.mem_map.mp (mem_editedIDs vc runtime h).1
  exact hvc.members user huser

theorem editScreen_create {uid now : String} {entry : Entry} {vc : AddEventVC}
    (h : s.editScreen ids (.create uid now entry) = some vc) : Creating s uid vc := by
  simp only [editScreen, Option.bind_eq_bind, Option.bind_eq_some_iff, Option.pure_def,
    Option.ite_none_left_eq_some, Option.some.injEq] at h
  obtain ⟨start, hstart, tapped, htapped, huid, rfl⟩ := h
  obtain ⟨⟨user, rfl⟩, -⟩ := AddEventVC.organiserLoaded_eq_some hstart rfl
  apply AddEventVC.tapped_invariant (fun vc => Creating s uid { vc with form := entry.form }) _ _
    htapped
  · intro vc vc' hvc htap
    obtain ⟨hcurrent, hevent, -⟩ := htap.fixed
    refine ⟨hcurrent.trans hvc.currentUser, hevent.trans hvc.event,
      htap.user_isSome hvc.user, fun user huser => ?_⟩
    rcases htap.mem_members huser with hold | ⟨hid, hself, hfound⟩
    · exact hvc.members user hold
    · exact ⟨hid, fun heq => hself (heq.trans hvc.currentUser.symm), hfound⟩
  · exact ⟨rfl, rfl, rfl, fun user huser => absurd huser List.not_mem_nil⟩

theorem editScreen_edit (hdb : s.db.Within Schema)
    (husers : ∀ uid, s.db.contains ["user", uid] = true → Registered s.db uid)
    {uid eventID : String} {notificationID : Option String} {membersLoaded : Bool} {entry : Entry}
    {vc : AddEventVC}
    (h : s.editScreen ids (.edit uid eventID notificationID membersLoaded entry) = some vc) :
    Editing s uid eventID membersLoaded vc := by
  simp only [editScreen, Option.bind_eq_bind, Option.bind_eq_some_iff, Option.pure_def,
    Option.ite_none_right_eq_some, Option.some.injEq] at h
  obtain ⟨row, hrow, screen, hscreen, hoffer, start, hstart, tapped, htapped, rfl⟩ := h
  obtain ⟨huid, event, notification, hread, rfl⟩ := opened_eq_some hrow
  have hscreen' : screen.event = event ∧ screen.currentUser = uid ∧
      (membersLoaded = true → Registered s.db event.organiserID → ∀ member ∈ event.memberIDs,
        Registered s.db member → member ∈ screen.memberData.map (·.userID)) := by
    cases membersLoaded with
    | true =>
      obtain ⟨hevent, huser, -, -⟩ := EventContentVC.loaded_eq_some hdb hscreen
      exact ⟨hevent, huser, fun _ horganiser _ hmember hregistered =>
        EventContentVC.loaded_memberData hdb hscreen horganiser hmember hregistered⟩
    | false =>
      obtain rfl := Option.some.inj hscreen
      exact ⟨rfl, rfl, nofun⟩
  obtain ⟨hevent, hcurrent, hmembers⟩ := hscreen'
  have horganiser : uid = event.organiserID := by
    rw [← hcurrent, ← hevent]
    exact of_decide_eq_true hoffer
  obtain ⟨⟨user, rfl⟩, hnode⟩ := AddEventVC.organiserLoaded_eq_some hstart rfl
  have hregistered : Registered s.db event.organiserID := by
    rw [← horganiser, ← hcurrent]
    exact husers _ hnode
  apply AddEventVC.tapped_invariant
    (fun vc => Editing s uid eventID membersLoaded { vc with form := entry.form }) _ _ htapped
  · intro vc vc' hvc htap
    obtain ⟨hsame, hkept, horiginal⟩ := htap.fixed
    refine ⟨hsame.trans hvc.currentUser, ?_, htap.user_isSome hvc.user, ?_, ?_⟩
    · obtain ⟨event, hread, heq, horganiser⟩ := hvc.event
      exact ⟨event, hread, hkept.trans heq, horganiser⟩
    · intro user huser
      rcases htap.mem_members huser with hold | ⟨hid, hself, hfound⟩
      · exact (hvc.members user hold).imp (fun h => horiginal ▸ h) id
      · exact .inr ⟨hid, fun heq => hself (heq.trans hvc.currentUser.symm), hfound⟩
    · intro hloaded event heq member hmember hregistered
      have hold := hvc.loaded hloaded event (hkept.symm.trans heq) member hmember hregistered
      exact horiginal ▸ hold
  · refine ⟨hcurrent, ⟨event, hread, ?_, horganiser.symm⟩, rfl, fun user huser => .inl huser, ?_⟩
    · exact congrArg some hevent
    · rintro hloaded _ ⟨⟩ member hmember hmemberRegistered
      exact hmembers hloaded hregistered member (hevent ▸ hmember) hmemberRegistered

/-- What an operation does to the tables, with what it took to be offered. -/
inductive Does (ids : AutoId) (s : Session) : Operation → Change String String → Prop
  | saveUser {user : GUser} : Does ids s (.saveUser user) .keep
  | create {uid now : String} {entry : Entry} {vc : AddEventVC} :
      s.editScreen ids (.create uid now entry) = some vc → Creating s uid vc →
      Does ids s (.create uid now entry)
        (.submit (ids.key s.drawn) [] (editedIDs vc entry.runtime) (some [""]))
  | edit {uid eventID : String} {notificationID : Option String} {membersLoaded : Bool}
      {entry : Entry} {vc : AddEventVC} :
      s.editScreen ids (.edit uid eventID notificationID membersLoaded entry) = some vc →
      Editing s uid eventID membersLoaded vc →
      Does ids s (.edit uid eventID notificationID membersLoaded entry)
        (.submit eventID (removedIDs vc entry.runtime) (editedIDs vc entry.runtime)
          (some (vc.finalMemberIDs entry.runtime)))
  | accept {uid eventID time : String} {notificationID : Option String} : uid ≠ "" →
      s.db.bool? ["invitingEventList", uid, eventID, "isReply"] = some false →
      Does ids s (.accept uid eventID notificationID time)
        (.accept uid eventID ((tables s.db).memberIDs eventID))
  | reject {uid eventID time : String} {notificationID : Option String} :
      s.db.bool? ["invitingEventList", uid, eventID, "isReply"] = some false →
      Does ids s (.reject uid eventID notificationID time) (.reject uid eventID)
  | dropOut {uid eventID time : String} {notificationID : Option String} : uid ≠ "" →
      uid ∈ (tables s.db).memberIDs eventID →
      Does ids s (.dropOut uid eventID notificationID time)
        (.dropOut uid eventID ((tables s.db).memberIDs eventID))

theorem memberIDs_of_read {db : Store} {eventID : String} {event : Event}
    (h : Event.read db ["event", eventID] = some event) :
    (tables db).memberIDs eventID = event.memberIDs := by
  have hleaf := Store.array?_eq_some.mpr (Event.read_eq_some.mp h).2.2.2.1
  simp only [List.cons_append, List.nil_append] at hleaf
  simp [tables, hleaf]

theorem writes_of_submitted {vc : AddEventVC} {entry : Entry} {out : List Write × Nat}
    {user : GUser} (huser : vc.user = some user) (h : submitted ids s vc entry = some out) :
    ∃ newID, out.1 = submissionWrites vc entry.runtime vc.currentUser
      (vc.submittedID (ids.key s.drawn)) newID entry.time entry.url := by
  simp only [submitted, Option.ite_none_right_eq_some, Option.some.injEq] at h
  obtain ⟨-, rfl⟩ := h
  obtain ⟨phase, hdone⟩ := AddEventVC.done_eq vc (ids.key s.drawn)
  have huser' : (vc.done (ids.key s.drawn)).user = some user := by
    rw [hdone]
    exact huser
  rw [uploadEventData_of_user _ _ _ _ huser', hdone]
  exact ⟨_, rfl⟩

theorem submitted_makes {vc : AddEventVC} {entry : Entry} {out : List Write × Nat}
    (huser : vc.user.isSome = true) (h : submitted ids s vc entry = some out) :
    List.Forall₂ Makes out.1 (Change.submit (vc.submittedID (ids.key s.drawn))
      (removedIDs vc entry.runtime) (editedIDs vc entry.runtime)
      (some (vc.finalMemberIDs entry.runtime))).edits := by
  obtain ⟨user, huser⟩ := Option.isSome_iff_exists.mp huser
  obtain ⟨newID, hwrites⟩ := writes_of_submitted huser h
  rw [hwrites]
  apply submission_makes _ _ _ _ _ huser
  intro event hevent
  simp [AddEventVC.submittedID, hevent]

/-- Every operation does what its handlers do, with the stored arrays in hand. -/
theorem does_of_issued (hdb : s.db.Within Schema)
    (husers : ∀ uid, s.db.contains ["user", uid] = true → Registered s.db uid) {op : Operation}
    {out : List Write × Nat} (h : s.issued ids op = some out) :
    ∃ change, Does ids s op change ∧ List.Forall₂ Makes out.1 change.edits := by
  cases op with
  | saveUser user =>
    simp only [issued, Option.ite_none_left_eq_some, Option.some.injEq] at h
    obtain ⟨-, rfl⟩ := h
    exact ⟨.keep, .saveUser, World.saveUser_makes user⟩
  | create uid now entry =>
    obtain ⟨vc, hscreen, h⟩ := Option.bind_eq_some_iff.mp h
    have hvc := editScreen_create hscreen
    refine ⟨_, .create hscreen hvc, ?_⟩
    have hremoved : removedIDs vc entry.runtime = [] := by
      simp [removedIDs, AddEventVC.isEdit, hvc.event]
    have hmakes := submitted_makes hvc.user h
    rw [hremoved, finalMemberIDs_of_new vc _ hvc.event, AddEventVC.submittedID, hvc.event] at hmakes
    exact hmakes
  | edit uid eventID notificationID membersLoaded entry =>
    obtain ⟨vc, hscreen, h⟩ := Option.bind_eq_some_iff.mp h
    have hvc := editScreen_edit hdb husers hscreen
    obtain ⟨event, hread, hevent, -⟩ := hvc.event
    refine ⟨_, .edit hscreen hvc, ?_⟩
    have hmakes := submitted_makes hvc.user h
    rw [AddEventVC.submittedID, hevent] at hmakes
    exact Event.eventID_of_read hdb hread ▸ hmakes
  | accept uid eventID notificationID time =>
    simp only [issued, Option.bind_eq_bind, Option.bind_eq_some_iff, Option.pure_def,
      Option.some.injEq] at h
    obtain ⟨row, hrow, vc, hvc, prompt, hprompt, rfl⟩ := h
    obtain ⟨huid, event, notification, hread, rfl⟩ := opened_eq_some hrow
    obtain ⟨hevent, huser, -, hpending⟩ := EventContentVC.loaded_eq_some hdb hvc
    have hkey := Event.eventID_of_read hdb hread
    refine ⟨_, .accept huid (hkey ▸ hpending (Option.isSome_of_eq_some hprompt)), ?_⟩
    have hmakes := agree_makes vc prompt
    rwa [hevent, huser, hkey, ← memberIDs_of_read hread] at hmakes
  | reject uid eventID notificationID time =>
    simp only [issued, Option.bind_eq_bind, Option.bind_eq_some_iff, Option.pure_def,
      Option.ite_none_left_eq_some, Option.some.injEq] at h
    obtain ⟨row, hrow, vc, hvc, prompt, hprompt, htrap, rfl⟩ := h
    obtain ⟨huid, event, notification, hread, rfl⟩ := opened_eq_some hrow
    obtain ⟨hevent, huser, -, hpending⟩ := EventContentVC.loaded_eq_some hdb hvc
    have hkey := Event.eventID_of_read hdb hread
    refine ⟨_, .reject (hkey ▸ hpending (Option.isSome_of_eq_some hprompt)), ?_⟩
    cases hnotification : vc.notification with
    | none => simp [EventContentVC.reject, hnotification, Outcome.trap] at htrap
    | some notification =>
      have hmakes := reject_makes vc prompt hnotification
      rwa [hevent, huser, hkey] at hmakes
  | dropOut uid eventID notificationID time =>
    simp only [issued, Option.bind_eq_bind, Option.bind_eq_some_iff, Option.pure_def,
      Option.ite_none_left_eq_some, Option.some.injEq] at h
    obtain ⟨row, hrow, vc, hvc, hoffer, rfl⟩ := h
    obtain ⟨huid, event, notification, hread, rfl⟩ := opened_eq_some hrow
    obtain ⟨hevent, huser, -, -⟩ := EventContentVC.loaded_eq_some hdb hvc
    have hmembers := memberIDs_of_read hread
    have hmember : uid ∈ (tables s.db).memberIDs eventID := by
      simp only [EventContentVC.showsDropOutAlert, huser, hevent, Bool.or_eq_true, not_or,
        Bool.not_eq_true', decide_eq_false_iff_not, not_not] at hoffer
      exact hmembers ▸ hoffer.2
    refine ⟨_, .dropOut huid hmember, ?_⟩
    have hmakes := dropOut_makes vc (ids.key s.drawn) time
    rwa [hevent, huser, Event.eventID_of_read hdb hread, ← hmembers] at hmakes

theorem does_of_step (hdb : s.db.Within Schema)
    (husers : ∀ uid, s.db.contains ["user", uid] = true → Registered s.db uid) {op : Operation}
    (h : step ids s op = some s') :
    ∃ change, Does ids s op change ∧ tables s'.db = change.apply (tables s.db) := by
  rw [step, Option.map_eq_some_iff] at h
  obtain ⟨out, h, rfl⟩ := h
  obtain ⟨change, hdoes, hmakes⟩ := does_of_issued hdb husers h
  refine ⟨change, hdoes, ?_⟩
  rw [← Change.applyAll_edits]
  exact tables_of_makes hmakes s.db

theorem submitted_within {vc : AddEventVC} {entry : Entry} {out : List Write × Nat}
    (h : submitted ids s vc entry = some out) :
    (∀ write ∈ out.1, write.Within Schema) ∧ 0 < out.2 ∧
      ∀ write ∈ out.1, write.Apart "user" := by
  simp only [submitted, Option.ite_none_right_eq_some, Option.some.injEq] at h
  obtain ⟨-, rfl⟩ := h
  refine ⟨?_, by dsimp only; omega, ?_⟩
  · apply AddEventVC.uploadEventData_forall
    · exact fun event _ round member => AddEventVC.removal_within _ _ _ round member event
    · exact fun round member => AddEventVC.invitation_within _ _ _ round member _
    · exact Event.within_schema (AddEventVC.storedEvent ..)
  · apply AddEventVC.uploadEventData_forall
    · exact fun event _ round member =>
        AddEventVC.removal_apart _ _ _ round member (.inl rfl) event
    · exact fun round member => AddEventVC.invitation_apart _ _ _ round member (.inl rfl) _
    · exact Write.apart_setValue (by decide) _ _

theorem writes_of_issued {op : Operation} {out : List Write × Nat}
    (h : s.issued ids op = some out) : (∀ write ∈ out.1, write.Within Schema) ∧
      ((0 < out.2 ∧ ∀ write ∈ out.1, write.Apart "user") ∨
        ∃ user : GUser, op = .saveUser user ∧
          out.1 = [.setValue ["user", user.userID] user.uploadedUserData]) := by
  cases op with
  | saveUser user =>
    simp only [issued, Option.ite_none_left_eq_some, Option.some.injEq] at h
    obtain ⟨huser, rfl⟩ := h
    exact ⟨by simpa using GUser.within_schema user huser, .inr ⟨user, rfl, rfl⟩⟩
  | create uid now entry =>
    obtain ⟨vc, -, h⟩ := Option.bind_eq_some_iff.mp h
    obtain ⟨hwithin, hapart⟩ := submitted_within h
    exact ⟨hwithin, .inl hapart⟩
  | edit uid eventID notificationID membersLoaded entry =>
    obtain ⟨vc, -, h⟩ := Option.bind_eq_some_iff.mp h
    obtain ⟨hwithin, hapart⟩ := submitted_within h
    exact ⟨hwithin, .inl hapart⟩
  | accept uid eventID notificationID time =>
    simp only [issued, Option.bind_eq_bind, Option.bind_eq_some_iff, Option.pure_def,
      Option.some.injEq] at h
    obtain ⟨row, -, vc, -, prompt, -, rfl⟩ := h
    exact ⟨EventContentVC.agree_within vc prompt,
      .inl ⟨Nat.one_pos, EventContentVC.agree_apart vc prompt⟩⟩
  | reject uid eventID notificationID time =>
    simp only [issued, Option.bind_eq_bind, Option.bind_eq_some_iff, Option.pure_def,
      Option.ite_none_left_eq_some, Option.some.injEq] at h
    obtain ⟨row, -, vc, -, prompt, -, -, rfl⟩ := h
    exact ⟨EventContentVC.reject_within vc prompt,
      .inl ⟨Nat.one_pos, EventContentVC.reject_apart vc prompt (.inl rfl)⟩⟩
  | dropOut uid eventID notificationID time =>
    simp only [issued, Option.bind_eq_bind, Option.bind_eq_some_iff, Option.pure_def,
      Option.ite_none_left_eq_some, Option.some.injEq] at h
    obtain ⟨row, -, vc, -, -, rfl⟩ := h
    exact ⟨EventContentVC.dropOut_within vc _ _,
      .inl ⟨Nat.one_pos, EventContentVC.dropOut_apart vc _ _⟩⟩

structure Sound (ids : AutoId) (s : Session) : Prop where
  schema : s.db.Within Schema
  users : ∀ uid, s.db.contains ["user", uid] = true → Registered s.db uid
  /-- Only events under drawn keys have members or invitations. -/
  keys : ∀ eventID, (tables s.db).memberIDs eventID ≠ [] ∨
    (∃ uid, ((tables s.db).invitingEventList uid eventID).isReply ≠ none) →
      ∃ n < s.drawn, eventID = ids.key n
  invited : ∀ uid eventID, ((tables s.db).invitingEventList uid eventID).pending = true → uid ≠ ""

theorem Sound.empty (ids : AutoId) : Sound ids empty where
  schema := Store.Within.empty Schema
  users uid huid := absurd huid (by simp [Session.empty, Store.empty, Store.contains])
  keys eventID h := by simp [tables, Session.empty, Store.array?, Store.bool?] at h
  invited uid eventID h := by simp [Session.empty, Store.bool?] at h

/-- A key not drawn yet names no event. -/
theorem Sound.undrawn (hs : Sound ids s) : (tables s.db).memberIDs (ids.key s.drawn) = [] ∧
    ∀ uid, ((tables s.db).invitingEventList uid (ids.key s.drawn)).isReply = none := by
  have hfresh : ¬∃ n < s.drawn, ids.key s.drawn = ids.key n := by
    intro ⟨n, hn, heq⟩
    have hsame := ids.injective heq
    omega
  constructor
  · exact Classical.not_not.mp fun h => hfresh (hs.keys _ (.inl h))
  · exact fun uid => Classical.not_not.mp fun h => hfresh (hs.keys _ (.inr ⟨uid, h⟩))

/-- The event an operation changes is the one it creates, or is stored already. -/
theorem Does.event_drawn (hs : Sound ids s) {op : Operation} {change : Change String String}
    (h : Does ids s op change) {eventID : String} (hevent : change.event = some eventID) :
    (eventID = ids.key s.drawn ∧ ∃ uid now entry, op = .create uid now entry) ∨
      ∃ n < s.drawn, eventID = ids.key n := by
  cases h with
  | saveUser => cases hevent
  | @create uid now entry _ _ _ =>
    exact .inl ⟨(Option.some.inj hevent).symm, uid, now, entry, rfl⟩
  | edit _ hvc =>
    obtain rfl := Option.some.inj hevent
    obtain ⟨event, hread, -⟩ := hvc.event
    refine .inr (hs.keys _ (.inl ?_))
    rw [memberIDs_of_read hread]
    intro hempty
    have hleaf := (Event.read_eq_some.mp hread).2.2.2.1
    exact Store.get_ne_array_nil _ _ (hempty ▸ hleaf)
  | @accept uid _ _ _ _ hpending =>
    obtain rfl := Option.some.inj hevent
    exact .inr (hs.keys _ (.inr ⟨uid, by simp [tables, hpending]⟩))
  | @reject uid _ _ _ hpending =>
    obtain rfl := Option.some.inj hevent
    exact .inr (hs.keys _ (.inr ⟨uid, by simp [tables, hpending]⟩))
  | dropOut _ hmember =>
    obtain rfl := Option.some.inj hevent
    exact .inr (hs.keys _ (.inl (List.ne_nil_of_mem hmember)))

theorem Does.invited_ne_empty {op : Operation} {change : Change String String}
    (h : Does ids s op change) {uid eventID : String} (hinvited : uid ∈ change.invited eventID) :
    uid ≠ "" := by
  cases h with
  | create _ hvc =>
    simp only [Change.invited] at hinvited
    split at hinvited
    · exact (hvc.edited _ hinvited).1
    · exact absurd hinvited List.not_mem_nil
  | edit _ hvc =>
    simp only [Change.invited] at hinvited
    split at hinvited
    · exact (hvc.edited _ hinvited).1
    · exact absurd hinvited List.not_mem_nil
  | _ => exact absurd hinvited List.not_mem_nil

theorem Sound.step (hs : Sound ids s) {op : Operation} (h : step ids s op = some s') :
    Sound ids s' := by
  obtain ⟨change, hdoes, htables⟩ := does_of_step hs.schema hs.users h
  rw [Session.step, Option.map_eq_some_iff] at h
  obtain ⟨out, h, rfl⟩ := h
  obtain ⟨hwithin, hwrites⟩ := writes_of_issued h
  refine ⟨hs.schema.applyAll hwithin, ?_, ?_, ?_⟩
  · apply registered_of_cases _ hs.users
    intro uid
    rcases hwrites with ⟨-, hapart⟩ | ⟨user, -, heq⟩
    · exact .inr fun rest => get_applyAll_of_apart hapart (uid :: rest)
    · rw [heq]
      exact saved_cases s.db user uid
  · intro eventID hused
    by_cases hevent : change.event = some eventID
    · rcases hdoes.event_drawn hs hevent with ⟨rfl, uid, now, entry, rfl⟩ | ⟨n, hn, hkey⟩
      · rcases hwrites with ⟨hpos, -⟩ | ⟨user, hop, -⟩
        · exact ⟨s.drawn, by dsimp only; omega, rfl⟩
        · cases hop
      · exact ⟨n, by dsimp only; omega, hkey⟩
    · obtain ⟨hmembers, hinvitations⟩ := change.apply_of_ne (tables s.db) hevent
      simp only [htables, hmembers, hinvitations] at hused
      obtain ⟨n, hn, hkey⟩ := hs.keys eventID hused
      exact ⟨n, by dsimp only; omega, hkey⟩
  · intro uid eventID hpending
    rw [htables] at hpending
    rcases change.pending_apply hpending with hold | hnew
    · exact hs.invited uid eventID hold
    · exact hdoes.invited_ne_empty hnew

end Session

end GetTogether
