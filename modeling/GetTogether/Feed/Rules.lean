import GetTogether.Feed.Told
import GetTogether.Feed.Threads
import GetTogether.Realtime.Changes

/-! Who may change what. The repository has no rules for its database; these are rules
every run of the app obeys, so a database that enforced them would refuse the app
nothing. -/
namespace GetTogether

open Realtime Roster

/-- Nobody else organises the event. -/
def Hosts (db : Store) (eventID uid : String) : Prop :=
  ∀ other, OrganisedBy db eventID other → other = uid

/-- The leaves an account may change, and to what. -/
inductive May (db : Store) (uid : String) : Path → Option Scalar → Prop
  | profile (field : String) (value : Option Scalar) : May db uid ["user", uid, field] value
  | event {eventID : String} (field : String) (value : Option Scalar) : Hosts db eventID uid →
      May db uid ["event", eventID, field] value
  | members {eventID : String} (value : Option Scalar) : (tables db).Recorded uid eventID →
      May db uid ["event", eventID, "memberIDs"] value
  | invitation {eventID : String} (guest field : String) (value : Option Scalar) :
      Hosts db eventID uid → (field = "isReply" → value = some (.bool false)) →
      May db uid ["invitingEventList", guest, eventID, field] value
  | replied {eventID : String} : (tables db).Recorded uid eventID →
      May db uid ["invitingEventList", uid, eventID, "isReply"] (some (.bool true))
  | left {eventID : String} : (tables db).Recorded uid eventID →
      May db uid ["invitingEventList", uid, eventID, "isMember"] (some (.bool false))
  | asked {eventID : String} (guest field : String) (value : Option Scalar) :
      Hosts db eventID uid → May db uid ["invitingMemberList", eventID, guest, field] value
  | answered {eventID : String} (field : String) : (tables db).Recorded uid eventID →
      May db uid ["invitingMemberList", eventID, uid, field] none
  | told {id : String} (field : String) (value : Option Scalar) : ¬Noticed db id →
      May db uid ["notification", id, field] value
  | marked {id field : String} : db.get ["notification", id, "userID"] = some (.string uid) →
      (field = "isRead" ∨ field = "isRemoved") →
      May db uid ["notification", id, field] (some (.bool true))
  | said {eventID id : String} (field : String) (value : Option Scalar) :
      db.contains ["comment", eventID, id] = false →
      (field = "userID" → value = some (.string uid)) → May db uid ["comment", eventID, id, field] value
  | takenBack (eventID id : String) (rest : Path) :
      May db uid ("comment" :: eventID :: id :: rest) none

section Inversion

variable {db : Store} {uid : String} {value : Option Scalar}

theorem May.profile_inv {who field : String} (h : May db uid ["user", who, field] value) :
    uid = who := by
  generalize hpath : ["user", who, field] = path at h
  cases h <;> simp_all

theorem May.event_inv {eventID field : String} (h : May db uid ["event", eventID, field] value)
    (hfield : field ≠ "memberIDs") : Hosts db eventID uid := by
  generalize hpath : ["event", eventID, field] = path at h
  cases h <;> simp_all

theorem May.reply_inv {who eventID : String}
    (h : May db uid ["invitingEventList", who, eventID, "isReply"] value) :
    uid = who ∨ value = some (.bool false) := by
  generalize hpath : ["invitingEventList", who, eventID, "isReply"] = path at h
  cases h <;> simp_all

theorem May.asked_inv {eventID guest field : String}
    (h : May db uid ["invitingMemberList", eventID, guest, field] value) :
    Hosts db eventID uid ∨ value = none := by
  generalize hpath : ["invitingMemberList", eventID, guest, field] = path at h
  cases h <;> simp_all

theorem May.notification_inv {id field : String}
    (h : May db uid ["notification", id, field] value) :
    ¬Noticed db id ∨ db.get ["notification", id, "userID"] = some (.string uid) := by
  generalize hpath : ["notification", id, field] = path at h
  cases h <;> simp_all

theorem May.comment_inv {eventID id : String} {who : Scalar}
    (h : May db uid ["comment", eventID, id, "userID"] (some who)) : who = .string uid := by
  generalize hpath : ["comment", eventID, id, "userID"] = path at h
  generalize hvalue : some who = value at h
  cases h <;> simp_all

end Inversion

/-! Where the fields of a record lie. -/

theorem Schema.fields {head : String} {path : Path} {value : Scalar}
    (h : Schema (head :: path) value) :
    path.length = if head = "invitingEventList" ∨ head = "invitingMemberList" then 3 else 2 := by
  generalize hpath : head :: path = whole at h
  cases h <;> obtain ⟨rfl, rfl⟩ := List.cons.inj hpath <;> rfl

theorem Schema.not_list {head : String} {path : Path} {value : Scalar}
    (h : Schema (head :: path) value) : head ≠ "memberList" ∧ head ≠ "eventList" := by
  generalize hpath : head :: path = whole at h
  cases h <;> obtain ⟨rfl, rfl⟩ := List.cons.inj hpath <;> decide

section Permitted

/-- What the write changes is its author's to change, notifications aside. -/
def Permitted (db : Store) (uid : String) (write : Write) : Prop :=
  ∀ head rest value, head ≠ "notification" → write.Changes db (head :: rest) value →
    May db uid (head :: rest) value

variable {db : Store} {uid : String}

theorem permitted_told (notification : GNotification) : Permitted db uid (told notification) :=
  fun _ _ _ hne h => absurd h (Write.not_changes_of_apart (Write.apart_setValue hne.symm _ _))

theorem permitted_notification {id field : String} {value : Scalar} :
    Permitted db uid (.updateChildValues ["notification", id] [(field, value)]) :=
  fun _ _ _ hne h =>
    absurd h (Write.not_changes_of_apart (Write.apart_updateChildValues hne.symm _ _ _))

variable (hdb : (db.hide "comment").Within Schema)

include hdb

theorem flat_of_within {head : String} {node : Path} (hne : head ≠ "comment")
    (hlength : node.length + 1 =
      if head = "invitingEventList" ∨ head = "invitingMemberList" then 3 else 2) :
    db.Flat (head :: node) := by
  intro rest value h
  have hfields := (hdb (head :: (node ++ rest)) value ((Store.get_hide hne _).trans h)).fields
  rw [← hlength, List.length_append, Nat.add_left_cancel_iff] at hfields
  exact List.length_eq_one_iff.mp hfields

theorem permitted_profile (user : GUser) :
    Permitted db user.userID (.setValue ["user", user.userID] user.uploadedUserData) := by
  intro head rest value _ h
  obtain ⟨field, hpath, -⟩ := h.object (flat_of_within hdb (by decide) rfl)
  rw [hpath]
  exact .profile field value

/-- Neither of these tables is ever filled. -/
theorem permitted_list {head : String} (hhead : head = "memberList" ∨ head = "eventList")
    (node : Path) : Permitted db uid (.removeValue (head :: node)) := by
  intro other rest value _ h
  obtain ⟨hwritten, hne⟩ := h
  rw [Write.writtenAt_removeValue, Option.ite_none_right_eq_some, Option.some.injEq] at hwritten
  obtain ⟨⟨below, hbelow⟩, rfl⟩ := hwritten
  obtain ⟨rfl, rfl⟩ := List.cons.inj hbelow
  obtain ⟨found, hfound⟩ := Option.ne_none_iff_exists'.mp hne.symm
  have hcomment : head ≠ "comment" := by rcases hhead with rfl | rfl <;> decide
  have hlist := (hdb _ found ((Store.get_hide hcomment _).trans hfound)).not_list
  rcases hhead with rfl | rfl
  · exact absurd rfl hlist.1
  · exact absurd rfl hlist.2

section Organiser

variable {eventID : String} (hhosts : Hosts db eventID uid)

include hhosts

theorem permitted_event {event : Event} (hid : event.eventID = eventID) :
    Permitted db uid (.setValue ["event", event.eventID] event.uploadedEventData) := by
  intro head rest value _ h
  obtain ⟨field, hpath, -⟩ := h.object (flat_of_within hdb (by decide) rfl)
  rw [hpath, hid]
  exact .event field value hhosts

theorem permitted_invitation (guest : String) (isMember : Bool) :
    Permitted db uid (.setValue ["invitingEventList", guest, eventID]
      (EventList.uploadedEventListData ⟨eventID, false, isMember⟩)) := by
  intro head rest value _ h
  obtain ⟨field, hpath, hvalue⟩ := h.object (flat_of_within hdb (by decide) rfl)
  rw [hpath, hvalue]
  apply May.invitation guest field _ hhosts
  rintro rfl
  simp

theorem permitted_removal (guest : String) :
    Permitted db uid (.updateChildValues ["invitingEventList", guest, eventID]
      [("isMember", .bool false)]) := by
  intro head rest value _ h
  obtain ⟨hpath, -⟩ := h.child (flat_of_within hdb (by decide) rfl)
  rw [hpath]
  exact .invitation guest _ _ hhosts fun hfield => absurd hfield (by decide)

theorem permitted_asked (guest : String) (value : Scalar) :
    Permitted db uid (.setValue ["invitingMemberList", eventID, guest, "invitingMemberID"]
      (.scalar value)) := by
  intro head rest found _ h
  have hflat : db.Flat ["invitingMemberList", eventID, guest] :=
    flat_of_within hdb (by decide) rfl
  obtain ⟨hpath, -⟩ := Write.Changes.scalar hflat h
  rw [hpath]
  exact .asked guest _ _ hhosts

end Organiser

section Guest

variable {eventID : String} (hrecorded : (tables db).Recorded uid eventID)

include hrecorded

theorem permitted_replied :
    Permitted db uid (.updateChildValues ["invitingEventList", uid, eventID]
      [("isReply", .bool true)]) := by
  intro head rest value _ h
  obtain ⟨hpath, rfl⟩ := h.child (flat_of_within hdb (by decide) rfl)
  rw [hpath]
  exact .replied hrecorded

theorem permitted_left :
    Permitted db uid (.updateChildValues ["invitingEventList", uid, eventID]
      [("isMember", .bool false)]) := by
  intro head rest value _ h
  obtain ⟨hpath, rfl⟩ := h.child (flat_of_within hdb (by decide) rfl)
  rw [hpath]
  exact .left hrecorded

theorem permitted_answered :
    Permitted db uid (.removeValue ["invitingMemberList", eventID, uid]) := by
  intro head rest value _ h
  obtain ⟨field, hpath, rfl⟩ := h.removed (flat_of_within hdb (by decide) rfl)
  rw [hpath]
  exact .answered field hrecorded

theorem permitted_members (memberIDs : List String) :
    Permitted db uid (.updateChildValues ["event", eventID]
      [("memberIDs", .array memberIDs)]) := by
  intro head rest value _ h
  obtain ⟨hpath, -⟩ := h.child (flat_of_within hdb (by decide) rfl)
  rw [hpath]
  exact .members value hrecorded

theorem permitted_members_set (memberIDs : List String) :
    Permitted db uid (.setValue ["event", eventID, "memberIDs"] (.scalar (.array memberIDs))) := by
  intro head rest value _ h
  have hflat : db.Flat ["event", eventID] := flat_of_within hdb (by decide) rfl
  obtain ⟨hpath, -⟩ := Write.Changes.scalar hflat h
  rw [hpath]
  exact .members value hrecorded

end Guest

end Permitted

theorem CommentTable.step_fixed {s s' : CommentTable} {a : CommentTable.Action}
    (h : s.step a = some s') : s'.vc = s.vc ∧ s'.currentUser = s.currentUser := by
  obtain ⟨-, h⟩ := CommentTable.step_eq_some.mp h
  cases a with
  | delivered comments =>
    obtain rfl := Option.some.inj h
    exact ⟨rfl, rfl⟩
  | reloadData =>
    simp only [stepRunning, Option.ite_none_right_eq_some, Option.some.injEq] at h
    obtain ⟨-, rfl⟩ := h
    exact ⟨rfl, rfl⟩
  | cellForRow row =>
    simp only [stepRunning, Option.ite_none_right_eq_some, Option.some.injEq] at h
    obtain ⟨-, rfl⟩ := h
    cases hrow : s.commentData[row]? <;> simp [cellForRowAt, hrow]
  | swipe row =>
    simp only [stepRunning, Option.ite_none_right_eq_some, Option.some.injEq] at h
    obtain ⟨-, rfl⟩ := h
    unfold swipe
    split <;> exact ⟨rfl, rfl⟩
  | commitDelete =>
    obtain ⟨row, -, rfl⟩ := Option.map_eq_some_iff.mp h
    unfold commitDelete
    split <;> exact ⟨rfl, rfl⟩

namespace Feed

variable {ids : AutoId} {f f' : Feed} {a : Action}

def Signed (f : Feed) : Prop := ∀ s ∈ f.commentVCs, s.currentUser.isSome = true

theorem Signed.step (hsigned : Signed f) (h : Step ids f a f') : Signed f' := by
  cases h with
  | openComments hvc =>
    intro s hs
    rcases List.mem_append.mp hs with hold | hnew
    · exact hsigned s hold
    · rw [List.mem_singleton.mp hnew]
      rfl
  | @table _ _ held _ hs hstep _ =>
    intro other hother
    rcases List.mem_or_eq_of_mem_set hother with hold | rfl
    · exact hsigned other hold
    · rw [(CommentTable.step_fixed hstep).2]
      exact hsigned held (List.mem_of_getElem? hs)
  | _ => exact hsigned

theorem author_of_step {w w' : World} {action : GetTogether.Action}
    (h : World.Step ids w action w') : ∃ uid, w.author action = some uid := by
  cases h <;> simp [World.author, *]

theorem Signed.author (hsigned : Signed f) (h : Step ids f a f') : ∃ uid, f.author a = some uid := by
  cases h with
  | base h => exact author_of_step h
  | openComments hvc => simp [Feed.author, hvc]
  | table hs _ _ =>
    obtain ⟨uid, huid⟩ := Option.isSome_iff_exists.mp (hsigned _ (List.mem_of_getElem? hs))
    exact ⟨uid, by simp [Feed.author, hs, huid]⟩
  | inputPressed hs huser => simp [Feed.author, hs, huser]
  | senderFetched hinput _ _ => simp [Feed.author, hinput]
  | openNotifications _ => exact ⟨_, rfl⟩
  | queryNotification hinbox _ => simp [Feed.author, hinbox]
  | didSelectRow hinbox _ => simp [Feed.author, hinbox]

structure Governed (ids : AutoId) (f : Feed) : Prop where
  lawful : World.Lawful ids f.world.bare
  told : Told ids f
  threads : ∃ conversation, Threads ids conversation f
  signed : Signed f

theorem Governed.empty (ids : AutoId) : Governed ids empty where
  lawful := World.Lawful.empty ids
  told := Told.empty ids
  threads := ⟨[], Threads.empty ids⟩
  signed _ hs := absurd hs List.not_mem_nil

theorem Governed.step (hgov : Governed ids f) (h : Step ids f a f') : Governed ids f' := by
  obtain ⟨conversation, hthreads⟩ := hgov.threads
  exact ⟨h.lawful hgov.lawful, hgov.told.step h, ⟨_, hthreads.step h⟩, hgov.signed.step h⟩

theorem governed_reachable (h : Reachable (step ids) Feed.empty f) : Governed ids f :=
  h.invariant (Governed ids) (Governed.empty ids) fun _ _ _ hgov hstep =>
    hgov.step (Step.of_step ids hstep)

/-- The account that submits hosts the event, which is its own or nobody's yet. -/
theorem hosts_submitted {w : World} (horg : World.Organised ids w) {i : Nat} {vc : AddEventVC}
    {autoID : String} (hvc : w.addVCs[i]? = some vc) (hphase : vc.phase = .uploading autoID) :
    Hosts w.db (vc.submittedID autoID) vc.currentUser := by
  intro other hby
  rcases World.submittedID_cases vc autoID with ⟨event, hevent, hid⟩ | ⟨hevent, hid⟩
  · obtain ⟨hstored, hself⟩ := (horg.add vc (List.mem_of_getElem? hvc)).1 event hevent
    rw [hid] at hby
    have hsame : other = event.organiserID := by simpa using hby.symm.trans hstored
    exact hsame.trans hself.symm
  · have hblank := (horg.uploading i vc autoID hvc hphase hevent).organiser
    rw [hid] at hby
    exact absurd (hblank.symm.trans hby) (by simp)

theorem permitted_base {w w' : World} {action : GetTogether.Action}
    (hlaw : World.Lawful ids w.bare) (h : World.Step ids w action w') :
    ∀ write ∈ w.issued ids action, ∃ uid, w.author action = some uid ∧ Permitted w.db uid write := by
  have hdb : (w.db.hide "comment").Within Schema := hlaw.schema
  have henr : World.Enrolled w := (World.same_of_bare w).enrolled hlaw.enrolled
  have horg : World.Organised ids w := (World.same_of_bare w).organised hlaw.organised
  have hacc : World.Accounts w := (World.same_of_bare w).accounts hlaw.accounts
  have hall : ∀ uid, w.author action = some uid →
      (∀ write ∈ w.issued ids action, Permitted w.db uid write) →
      ∀ write ∈ w.issued ids action, ∃ uid, w.author action = some uid ∧ Permitted w.db uid write :=
    fun uid huid hpermitted write hwrite => ⟨uid, huid, hpermitted write hwrite⟩
  cases h with
  | @saveUser user _ =>
    apply hall user.userID rfl
    simpa [World.issued] using permitted_profile hdb user
  | @agree screen vc prompt hvc hprompt =>
    have hrecorded := (henr.prompts vc (List.mem_of_getElem? hvc)).1 (Option.isSome_of_eq_some hprompt)
    apply hall vc.currentUser (by simp [World.author, hvc])
    simp only [World.issued, hvc, hprompt, Option.map_some, Option.getD_some,
      EventContentVC.agree, List.forall_mem_cons]
    exact ⟨permitted_told (vc.agreeNotification prompt), permitted_replied hdb hrecorded,
      permitted_answered hdb hrecorded, permitted_members hdb hrecorded _, by simp⟩
  | @reject screen vc prompt notification hvc hprompt hnotification =>
    have hrecorded := (henr.prompts vc (List.mem_of_getElem? hvc)).1 (Option.isSome_of_eq_some hprompt)
    apply hall vc.currentUser (by simp [World.author, hvc])
    simp only [World.issued, hvc, hprompt, Option.map_some, Option.getD_some,
      EventContentVC.reject, hnotification, Outcome.issue_writes, List.forall_mem_cons]
    exact ⟨permitted_notification, permitted_replied hdb hrecorded, permitted_left hdb hrecorded,
      permitted_answered hdb hrecorded, permitted_told (vc.rejectNotification prompt), by simp⟩
  | @dropOut screen time vc hvc _ hmember =>
    have hmem := List.mem_of_getElem? hvc
    have hrecorded := henr.held _ _ (.content hmem) _ hmember (hacc.content vc hmem).1
    apply hall vc.currentUser (by simp [World.author, hvc])
    simp only [World.issued, hvc, EventContentVC.dropOut, List.forall_mem_cons]
    exact ⟨permitted_members_set hdb hrecorded _, permitted_left hdb hrecorded,
      permitted_told (vc.dropOutNotification _ time), by simp⟩
  | @uploaded screen runtime time url autoID vc hvc hphase =>
    have hhosts := hosts_submitted horg hvc hphase
    apply hall vc.currentUser (by simp [World.author, hvc])
    simp only [World.issued, hvc, hphase]
    apply vc.uploadEventData_forall
    · intro event hevent round member
      have hid : vc.submittedID autoID = event.eventID := by simp [AddEventVC.submittedID, hevent]
      rw [hid] at hhosts
      apply Outcome.andThen_forall
      · simp only [Outcome.issue_writes, List.forall_mem_cons]
        exact ⟨permitted_list hdb (.inl rfl) _, permitted_list hdb (.inr rfl) _, by simp⟩
      · cases vc.user with
        | none => simp [Outcome.trap]
        | some user =>
          simp only [Outcome.issue_writes, List.forall_mem_cons]
          exact ⟨permitted_removal hdb hhosts _, permitted_told
            (AddEventVC.removalNotification user event member _ time), by simp⟩
    · intro round member
      apply Outcome.andThen_forall
      · simp only [Outcome.issue_writes, List.forall_mem_cons]
        exact ⟨permitted_asked hdb hhosts _ _, permitted_invitation hdb hhosts _ true, by simp⟩
      · cases vc.user with
        | none => simp [Outcome.trap]
        | some user =>
          simp only [Outcome.issue_writes, List.forall_mem_cons]
          exact ⟨permitted_told (vc.invitationNotification user _ member _ time), by simp⟩
    · exact @permitted_event w.db vc.currentUser hdb _ hhosts
        (vc.storedEvent runtime vc.currentUser (vc.submittedID autoID) url) rfl
  | _ => simp [World.issued]

section Changes

variable (hgov : Governed ids f) (h : Step ids f a f') {rest : Path}

include hgov h

theorem Governed.may_comment
    (hne : f'.world.db.get ("comment" :: rest) ≠ f.world.db.get ("comment" :: rest)) :
    ∃ uid, f.author a = some uid ∧
      May f.world.db uid ("comment" :: rest) (f'.world.db.get ("comment" :: rest)) := by
  rcases h.remarks_cases with ⟨-, hsame⟩ | ⟨comment, -, hauthor, hkey, -, hdb⟩ |
    ⟨eventID, id, -, ⟨s, hs, hauthor⟩, hdb⟩
  · exact absurd (hsame rest) hne
  · obtain ⟨conversation, hthreads⟩ := hgov.threads
    have hfree : f.world.db.contains ["comment", comment.eventID, comment.commentID] = false := by
      rw [← Bool.not_eq_true]
      intro hnode
      obtain ⟨found, hfound, -, hsame⟩ := hthreads.complete _ _ hnode
      exact hthreads.fresh hfound (hsame.trans hkey)
    have hflat : f.world.db.Flat ["comment", comment.eventID, comment.commentID] := by
      intro below value hleaf
      have hnode := (Store.contains_iff _ _).mpr ⟨below, value, hleaf⟩
      rw [hfree] at hnode
      cases hnode
    have hone : f'.world.db = f.world.db.applyAll [.setValue
        ["comment", comment.eventID, comment.commentID] comment.uploadedCommentData] := hdb
    rw [hone] at hne ⊢
    obtain ⟨write, hwrite, hchange⟩ := exists_changes hne
    obtain rfl := List.mem_singleton.mp hwrite
    obtain ⟨field, hpath, hvalue⟩ := hchange.object hflat
    refine ⟨comment.userID, hauthor, ?_⟩
    rw [hpath] at hvalue ⊢
    rw [hvalue]
    apply May.said field _ hfree
    rintro rfl
    simp
  · obtain ⟨uid, huid⟩ := Option.isSome_iff_exists.mp (hgov.signed s hs)
    refine ⟨uid, hauthor.trans huid, ?_⟩
    rw [hdb, Write.get_apply, Write.writtenAt_removeValue] at hne ⊢
    split at hne
    · next hbelow =>
      obtain ⟨below, hbelow⟩ := hbelow
      rw [← hbelow, if_pos (List.prefix_append _ below)]
      exact .takenBack eventID id below
    · exact absurd rfl hne

theorem Governed.may_notification
    (hne : f'.world.db.get ("notification" :: rest) ≠ f.world.db.get ("notification" :: rest)) :
    ∃ uid, f.author a = some uid ∧
      May f.world.db uid ("notification" :: rest) (f'.world.db.get ("notification" :: rest)) := by
  have hdb := hgov.lawful.schema
  rw [h.db_eq] at hne ⊢
  obtain ⟨write, hwrite, hchange⟩ := exists_changes hne
  have hentry := hgov.told.entries h write hwrite
  cases hentry with
  | elsewhere hapart _ =>
    have hnone := (hapart rest).symm.trans hchange.1
    cases hnone
  | @post id tree hwhole =>
    have hid : id ∈ notificationLedger.posted (f.issued ids a) :=
      List.mem_filterMap.mpr ⟨_, hwrite, Write.posted_setValue _ id tree⟩
    obtain ⟨notification, rfl, rfl⟩ := hwhole
    obtain ⟨field, hpath, -⟩ := hchange.object (flat_of_within hdb (by decide) rfl)
    obtain ⟨uid, huid⟩ := hgov.signed.author h
    refine ⟨uid, huid, ?_⟩
    rw [hpath]
    exact .told field _ (hgov.told.not_noticed h hid)
  | @set id field value hmine hsets =>
    obtain ⟨uid, huid, hleaf⟩ := hmine
    obtain ⟨hfield, rfl⟩ := hsets
    have hflat : f.world.db.Flat ["notification", id] := flat_of_within hdb (by decide) rfl
    obtain ⟨hpath, hvalue⟩ := Write.Changes.child hflat hchange
    refine ⟨uid, huid, ?_⟩
    rw [hvalue, hpath]
    exact .marked hleaf hfield

theorem Governed.may {path : Path} (hne : f'.world.db.get path ≠ f.world.db.get path) :
    ∃ uid, f.author a = some uid ∧ May f.world.db uid path (f'.world.db.get path) := by
  cases path with
  | nil =>
    have hnil : ∀ db : Store, (db.hide "comment").Within Schema → db.get [] = none := by
      intro db hdb
      by_contra hsome
      obtain ⟨value, hvalue⟩ := Option.ne_none_iff_exists'.mp hsome
      have hleaf : (db.hide "comment").get [] = some value := by
        rw [← hvalue]
        simp [Store.hide, Store.removeValue, Store.get_setValue]
      have hschema := hdb [] value hleaf
      cases hschema
    rw [hnil _ hgov.lawful.schema, hnil _ (h.lawful hgov.lawful).schema] at hne
    exact absurd rfl hne
  | cons head rest =>
    by_cases hcomment : head = "comment"
    · subst hcomment
      exact hgov.may_comment h hne
    by_cases hnotification : head = "notification"
    · subst hnotification
      exact hgov.may_notification h hne
    rw [h.db_eq] at hne ⊢
    obtain ⟨write, hwrite, hchange⟩ := exists_changes hne
    by_cases hbase : ∃ action, a = .base action
    · obtain ⟨action, rfl⟩ := hbase
      cases h with
      | base h =>
        obtain ⟨uid, huid, hpermitted⟩ := permitted_base hgov.lawful h write hwrite
        exact ⟨uid, huid, hpermitted head rest _ hnotification hchange⟩
    · have haside := h.issued_aside (fun action ha => hbase ⟨action, ha⟩) write hwrite
      exact absurd hchange (Write.not_changes_of_apart
        (haside.apart (Ne.symm hcomment) (Ne.symm hnotification)))

end Changes

/-- Every leaf any action of the app ever changes is one its account may change, and to
that value: its own profile, the events it organises and the invitations to them, its own
answer, a new notification or comment, the marks on a notification it was sent. -/
theorem only_in_their_own_name (ids : AutoId) (f f' : Feed) (a : Action)
    (h : Reachable (step ids) Feed.empty f) (hstep : step ids f a = some f') (path : Path)
    (hne : f'.world.db.get path ≠ f.world.db.get path) :
    ∃ uid, f.author a = some uid ∧ May f.world.db uid path (f'.world.db.get path) :=
  (governed_reachable h).may (Step.of_step ids hstep) hne

/-- Bob has opened his invitation and sees the prompt. -/
def prompted : List Action := invitation ++ [.base (.openEvent "bob" "k" (some "kk")),
  .base (.queryEventList 0), .base (.userFetched 0 0 "2018-12-02")]

theorem only_in_their_own_name_joining : ∃ f f' uid,
    exec (step .unary) Feed.empty prompted = some f ∧
      step .unary f (.base (.agree 0)) = some f' ∧ f.author (.base (.agree 0)) = some uid ∧
      May f.world.db uid ["event", "k", "memberIDs"]
        (f'.world.db.get ["event", "k", "memberIDs"]) := by
  have hrun : ((exec (step .unary) Feed.empty prompted).any fun f =>
      (step .unary f (.base (.agree 0))).any fun f' =>
        f'.world.db.get ["event", "k", "memberIDs"] ≠
          f.world.db.get ["event", "k", "memberIDs"]) = true := by decide
  obtain ⟨f, hf, hrest⟩ := (Option.any_eq_true _ _).mp hrun
  obtain ⟨f', hf', hne⟩ := (Option.any_eq_true _ _).mp hrest
  obtain ⟨uid, huid, hmay⟩ := only_in_their_own_name .unary f f' _ ⟨prompted, hf⟩ hf'
    ["event", "k", "memberIDs"] (of_decide_eq_true hne)
  exact ⟨f, f', uid, hf, hf', huid, hmay⟩

/-- What is an account's own stays as it was: its profile, the events it organises but for
their members, its unanswered invitations, its marks on what it was told, and what was
said in its name. Nobody is invited to its events. -/
structure Untouched (uid : String) (db db' : Store) : Prop where
  profile : ∀ field, db'.get ["user", uid, field] = db.get ["user", uid, field]
  event : ∀ eventID, OrganisedBy db eventID uid → ∀ field, field ≠ "memberIDs" →
    db'.get ["event", eventID, field] = db.get ["event", eventID, field]
  unanswered : ∀ eventID,
    db.get ["invitingEventList", uid, eventID, "isReply"] = some (.bool false) →
    db'.get ["invitingEventList", uid, eventID, "isReply"] = some (.bool false)
  uninvited : ∀ eventID, OrganisedBy db eventID uid → ∀ guest field value,
    db'.get ["invitingMemberList", eventID, guest, field] = some value →
    db.get ["invitingMemberList", eventID, guest, field] = some value
  told : ∀ id, db.get ["notification", id, "userID"] = some (.string uid) → ∀ field,
    db'.get ["notification", id, field] = db.get ["notification", id, field]
  said : ∀ eventID id, db'.get ["comment", eventID, id, "userID"] = some (.string uid) →
    db.get ["comment", eventID, id, "userID"] = some (.string uid)

theorem Untouched.refl (uid : String) (db : Store) : Untouched uid db db where
  profile _ := rfl
  event _ _ _ _ := rfl
  unanswered _ h := h
  uninvited _ _ _ _ _ h := h
  told _ _ _ := rfl
  said _ _ h := h

theorem Untouched.organised {uid eventID : String} {db db' : Store} (h : Untouched uid db db')
    (hby : OrganisedBy db eventID uid) : OrganisedBy db' eventID uid :=
  (h.event eventID hby "organiserID" (by decide)).trans hby

theorem Untouched.trans {uid : String} {db db' db'' : Store} (h : Untouched uid db db')
    (h' : Untouched uid db' db'') : Untouched uid db db'' where
  profile field := (h'.profile field).trans (h.profile field)
  event eventID hby field hfield :=
    (h'.event eventID (h.organised hby) field hfield).trans (h.event eventID hby field hfield)
  unanswered eventID hopen := h'.unanswered eventID (h.unanswered eventID hopen)
  uninvited eventID hby guest field value hvalue :=
    h.uninvited eventID hby guest field value
      (h'.uninvited eventID (h.organised hby) guest field value hvalue)
  told id huser field := by
    rw [h'.told id ((h.told id huser "userID").trans huser) field, h.told id huser field]
  said eventID id hsaid := h.said eventID id (h'.said eventID id hsaid)

theorem Governed.untouched (hgov : Governed ids f) (h : Step ids f a f') {uid : String}
    (hidle : f.author a ≠ some uid) : Untouched uid f.world.db f'.world.db := by
  have hother : ∀ path, f'.world.db.get path ≠ f.world.db.get path →
      ∃ actor, actor ≠ uid ∧ May f.world.db actor path (f'.world.db.get path) := by
    intro path hne
    obtain ⟨actor, hactor, hmay⟩ := hgov.may h hne
    exact ⟨actor, fun hsame => hidle (hsame ▸ hactor), hmay⟩
  refine ⟨fun field => ?_, fun eventID hby field hfield => ?_, fun eventID hopen => ?_,
    fun eventID hby guest field value hvalue => ?_, fun id huser field => ?_,
    fun eventID id hsaid => ?_⟩
  · by_contra hne
    obtain ⟨actor, hactor, hmay⟩ := hother _ hne
    exact hactor hmay.profile_inv
  · by_contra hne
    obtain ⟨actor, hactor, hmay⟩ := hother _ hne
    exact hactor (hmay.event_inv hfield uid hby).symm
  · by_contra hne
    obtain ⟨actor, hactor, hmay⟩ := hother _ (hopen ▸ hne)
    rcases hmay.reply_inv with hself | hfalse
    · exact hactor hself
    · exact hne hfalse
  · by_contra hne
    obtain ⟨actor, hactor, hmay⟩ := hother _ (fun hsame => hne (hsame.symm.trans hvalue))
    rcases hmay.asked_inv with hhosts | hnone
    · exact hactor (hhosts uid hby).symm
    · exact absurd (hnone.symm.trans hvalue) (by simp)
  · by_contra hne
    obtain ⟨actor, hactor, hmay⟩ := hother _ hne
    rcases hmay.notification_inv with hfree | hleaf
    · exact hfree ((Store.contains_iff _ _).mpr ⟨["userID"], _, huser⟩)
    · have hsame := huser.symm.trans hleaf
      exact hactor (by simpa using hsame.symm)
  · by_contra hne
    obtain ⟨actor, hactor, hmay⟩ := hother _ (fun hsame => hne (hsame.symm.trans hsaid))
    rw [hsaid] at hmay
    have hsame := hmay.comment_inv
    exact hactor (by simpa using hsame.symm)

/-- While an account does nothing, whatever all the others do, nothing that is its own
changes and nothing is done in its name. -/
theorem nobody_acts_for_them (ids : AutoId) (f f' : Feed) (actions : List Action)
    (h : Reachable (step ids) Feed.empty f) (hrun : exec (step ids) f actions = some f')
    (uid : String) (hidle : EachStep (step ids) (fun f a => f.author a ≠ some uid) f actions) :
    Untouched uid f.world.db f'.world.db := by
  have hkeep : ∀ s a s', Governed ids s ∧ Untouched uid f.world.db s.world.db →
      s.author a ≠ some uid → step ids s a = some s' →
      Governed ids s' ∧ Untouched uid f.world.db s'.world.db := by
    intro s a s' hs hother hstep
    have hstep := Step.of_step ids hstep
    exact ⟨hs.1.step hstep, hs.2.trans (hs.1.untouched hstep hother)⟩
  have hstart : Governed ids f ∧ Untouched uid f.world.db f.world.db :=
    ⟨governed_reachable h, .refl uid f.world.db⟩
  exact (EachStep.invariant hkeep hstart hidle hrun).2

/-- Bob joins while Alice does nothing. -/
theorem nobody_acts_for_them_joining : ∃ f f',
    exec (step .unary) Feed.empty prompted = some f ∧
      exec (step .unary) f [.base (.agree 0)] = some f' ∧
      Untouched "alice" f.world.db f'.world.db := by
  have hrun : ((exec (step .unary) Feed.empty prompted).any fun f =>
      (exec (step .unary) f [.base (.agree 0)]).isSome &&
        f.author (.base (.agree 0)) ≠ some "alice") = true := by decide
  obtain ⟨f, hf, hrest⟩ := (Option.any_eq_true _ _).mp hrun
  rw [Bool.and_eq_true] at hrest
  obtain ⟨f', hf'⟩ := Option.isSome_iff_exists.mp hrest.1
  have hidle : EachStep (step .unary) (fun f a => f.author a ≠ some "alice") f
      [.base (.agree 0)] := fun s' _ => ⟨of_decide_eq_true hrest.2, trivial⟩
  exact ⟨f, f', hf, hf', nobody_acts_for_them .unary f f' _ ⟨prompted, hf⟩ hf' "alice" hidle⟩

end Feed

end GetTogether
