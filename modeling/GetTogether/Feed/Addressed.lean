import GetTogether.Feed.Rules
import GetTogether.World.Sentinel

/-! Whom the app tells. Every notification is about a stored event and goes to its
organiser or to someone invited to it, and nobody is told of what they did themselves. -/
namespace GetTogether

open Realtime Roster

theorem told_inj {a b : GNotification} (h : told a = told b) : a = b := by
  cases a
  cases b
  simpa [told, GNotification.uploadNotification, Tree.object] using h

theorem AddEventVC.told_uploadEventData {vc : AddEventVC} {runtime : Runtime} {newID : Nat → String}
    {time autoID url uid : String} {notification : GNotification}
    (h : told notification ∈
      (vc.uploadEventData runtime (some uid) autoID newID time url).writes) :
    ∃ user, vc.user = some user ∧
      ((∃ event, vc.event = some event ∧ ∃ member ∈ vc.removedMembers runtime, ∃ id,
        notification = removalNotification user event member id time) ∨
      ∃ member ∈ vc.editedMembers runtime, ∃ id,
        notification = vc.invitationNotification user (vc.submittedID autoID) member id time) := by
  have hne : ∀ {head : String} {path : Path} {tree : Tree}, head ≠ "notification" →
      told notification ≠ .setValue (head :: path) tree := by
    intro head path tree hne heq
    simp only [told, Write.setValue.injEq, List.cons.injEq] at heq
    exact hne heq.1.1.symm
  rcases Outcome.mem_andThen h with h | ⟨-, h⟩
  · cases hevent : vc.event with
    | none => simp [removals, hevent] at h
    | some event =>
      simp only [removals, hevent] at h
      obtain ⟨round, member, hmember, h⟩ := Outcome.mem_forEach h
      rcases Outcome.mem_andThen h with h | ⟨-, h⟩
      · simp [told] at h
      · cases huser : vc.user with
        | none => simp [huser, Outcome.trap] at h
        | some user =>
          simp only [huser, Outcome.issue_writes, List.mem_cons, List.not_mem_nil, or_false] at h
          rcases h with h | h
          · cases h
          · exact ⟨user, rfl, .inl ⟨event, rfl, member, hmember, newID round, told_inj h⟩⟩
  · rcases Outcome.mem_andThen h with h | ⟨-, h⟩
    · obtain ⟨round, member, hmember, h⟩ := Outcome.mem_forEach h
      rcases Outcome.mem_andThen h with h | ⟨-, h⟩
      · simp only [Outcome.issue_writes, List.mem_cons, List.not_mem_nil, or_false] at h
        rcases h with h | h
        · exact absurd h (hne (by decide))
        · exact absurd h (hne (by decide))
      · cases huser : vc.user with
        | none => simp [huser, Outcome.trap] at h
        | some user =>
          simp only [huser, Outcome.issue_writes, List.mem_singleton] at h
          exact ⟨user, rfl, .inr ⟨member, hmember, newID round, told_inj h⟩⟩
    · rw [Outcome.issue_writes, List.mem_singleton] at h
      exact absurd h (hne (by decide))

/-- Whoever a submission that runs to its end invites or removes has a record after it. -/
theorem Roster.recorded_submission {vc : AddEventVC} {runtime : Runtime} {user : GUser}
    (huser : vc.user = some user) {eventID uid : String} (tables : Tables String String)
    (h : uid ∈ removedIDs vc runtime ∨ uid ∈ editedIDs vc runtime) :
    ((submission vc runtime eventID).apply tables).Recorded uid eventID := by
  simp only [submission, huser, Change.apply, Tables.submit, Tables.Recorded, true_and]
  by_cases hedited : uid ∈ editedIDs vc runtime
  · simp [hedited, Invitation.exists?]
  · have hremoved := h.resolve_right hedited
    simp [hedited, hremoved, Invitation.exists?]

theorem CommentVC.mem_notifications {vc : CommentVC} {author commentID time : String}
    {sender : GUser} {newID : Nat → String} {notification : GNotification}
    (h : notification ∈ vc.notifications author commentID sender newID time) :
    ∃ uid id, notification = vc.commentNotification sender uid id time := by
  unfold CommentVC.notifications at h
  split at h
  · obtain ⟨i, _, rfl⟩ := List.exists_of_mem_mapIdx h
    exact ⟨_, _, rfl⟩
  · rcases List.mem_cons.mp h with rfl | h
    · exact ⟨_, _, rfl⟩
    · obtain ⟨i, _, rfl⟩ := List.exists_of_mem_mapIdx h
      exact ⟨_, _, rfl⟩

/-- The guests a screen of the event has loaded were invited to it. -/
def Company (db : Store) (event : Event) (memberData : List GUser) : Prop :=
  OrganisedBy db event.eventID event.organiserID ∧
    ∀ user ∈ memberData, (tables db).Recorded user.userID event.eventID

/-- The notification is about an event, and goes to its organiser or to an invited user. -/
def Addressed (db : Store) (notification : GNotification) : Prop :=
  ∃ organiserID, OrganisedBy db notification.eventID organiserID ∧
    (notification.userID = organiserID ∨
      (tables db).Recorded notification.userID notification.eventID)

/-- Events keep their organisers and invited users their records. -/
structure Keeps (db db' : Store) : Prop where
  organiser : ∀ eventID uid, OrganisedBy db eventID uid → OrganisedBy db' eventID uid
  recorded : ∀ uid eventID, (tables db).Recorded uid eventID → (tables db').Recorded uid eventID

theorem Keeps.company {db db' : Store} (h : Keeps db db') {event : Event} {memberData : List GUser}
    (hcompany : Company db event memberData) : Company db' event memberData := by
  obtain ⟨hby, hmembers⟩ := hcompany
  exact ⟨h.organiser _ _ hby, fun user huser => h.recorded _ _ (hmembers user huser)⟩

theorem Keeps.addressed {db db' : Store} (h : Keeps db db') {notification : GNotification}
    (haddressed : Addressed db notification) : Addressed db' notification := by
  obtain ⟨organiserID, hby, hwho⟩ := haddressed
  exact ⟨organiserID, h.organiser _ _ hby, hwho.imp id (h.recorded _ _)⟩

theorem Addressed.later {db : Store} {before after : GNotification} (h : before.Later after)
    (haddressed : Addressed db before) : Addressed db after := by
  have hevent : after.eventID = before.eventID := by rw [h.fields]
  have huser : after.userID = before.userID := by rw [h.fields]
  rwa [Addressed, hevent, huser]

namespace World

theorem Same.sentinel {w w' : World} (hsame : Same w w') (h : Sentinel w) : Sentinel w' := by
  have hget : ∀ eventID rest, w'.db.get ("event" :: eventID :: rest) =
      w.db.get ("event" :: eventID :: rest) :=
    fun eventID rest => hsame.get "event" (by simp) (eventID :: rest)
  refine ⟨fun eventID hnode => ?_, fun eventID memberIDs hheld => ?_⟩
  · rw [Store.contains_of_get_eq (hget eventID)] at hnode
    exact (h.stored eventID hnode).of_get_eq (hget eventID)
  · obtain ⟨hmem, hstored⟩ := h.held eventID memberIDs ((hsame.held_iff _ _).mp hheld)
    exact ⟨hmem, hstored.of_get_eq (hget eventID)⟩

end World

namespace Feed

variable {ids : AutoId} {f f' : Feed} {a : Action}

theorem tables_bare (w : World) : tables w.db = tables w.bare.db :=
  (World.same_of_bare w).tables_eq

theorem organised_bare (w : World) (eventID uid : String) :
    OrganisedBy w.db eventID uid ↔ OrganisedBy w.bare.db eventID uid :=
  (World.same_of_bare w).organisedBy_iff eventID uid

theorem Step.keeps (h : Step ids f a f') (hlaw : World.Lawful ids f.world.bare) :
    Keeps f.world.db f'.world.db := by
  by_cases hbase : ∃ action, a = .base action
  · obtain ⟨action, rfl⟩ := hbase
    cases h with
    | base h =>
      refine ⟨fun eventID uid hby => ?_, fun uid eventID hrecorded => ?_⟩
      · rw [organised_bare] at hby ⊢
        exact hlaw.organised.organisedBy h.bare hby
      · rw [h.tables_eq]
        exact Change.recorded _ hrecorded
  · have hbase : ∀ action, a ≠ .base action := fun action ha => hbase ⟨action, ha⟩
    obtain ⟨count, heq⟩ := h.world_eq hbase
    have hsame := same_of_aside (w := f.world) (h.issued_aside hbase) count
    rw [← heq] at hsame
    refine ⟨fun eventID uid hby => ?_, fun uid eventID hrecorded => ?_⟩
    · rw [organised_bare] at hby ⊢
      exact (hsame.organisedBy_iff eventID uid).mpr hby
    · rw [tables_bare] at hrecorded ⊢
      rwa [hsame.tables_eq]

structure Known (f : Feed) : Prop where
  sentinel : World.Sentinel f.world.bare
  content : ∀ vc ∈ f.world.contentVCs, Company f.world.db vc.event vc.memberData
  comment : ∀ s ∈ f.commentVCs, Company f.world.db s.vc.event s.vc.memberData
  input : ∀ input ∈ f.inputs, Company f.world.db input.vc.event input.vc.memberData
  stored : ∀ id notification, GNotification.read f.world.db ["notification", id] =
    some notification → Addressed f.world.db notification

theorem Known.empty : Known empty where
  sentinel := World.Sentinel.empty
  content _ h := absurd h List.not_mem_nil
  comment _ h := absurd h List.not_mem_nil
  input _ h := absurd h List.not_mem_nil
  stored id notification h := by
    simp [GNotification.read_eq_some, Feed.empty, World.empty] at h

theorem Governed.guest_ne {eventID uid organiserID : String} (hgov : Governed ids f)
    (hrecorded : (tables f.world.db).Recorded uid eventID)
    (hby : OrganisedBy f.world.db eventID organiserID) : organiserID ≠ uid := by
  rintro rfl
  rw [tables_bare] at hrecorded
  exact (hgov.lawful.organised.aside eventID organiserID ((organised_bare ..).mp hby)).2 hrecorded

theorem Known.prompt_self (hknown : Known f) (hgov : Governed ids f) {vc : EventContentVC}
    (hvc : vc ∈ f.world.contentVCs) {prompt : AnswerSelector} (hprompt : vc.answerSelector = some prompt) :
    vc.event.organiserID ≠ vc.currentUser := by
  apply hgov.guest_ne _ (hknown.content vc hvc).1
  rw [tables_bare]
  exact (hgov.lawful.enrolled.prompts vc hvc).1 (Option.isSome_of_eq_some hprompt)

/-- A new notification is addressed, and not to the account that acts. -/
structure News (f f' : Feed) (a : Action) (notification : GNotification) : Prop where
  addressed : Addressed f'.world.db notification
  other : f.author a ≠ some notification.userID

section Steps

variable (hknown : Known f) (hgov : Governed ids f) (h : Step ids f a f')

include hknown hgov h

theorem Known.sentinel_step : World.Sentinel f'.world.bare := by
  by_cases hbase : ∃ action, a = .base action
  · obtain ⟨action, rfl⟩ := hbase
    cases h with
    | base h => exact hknown.sentinel.step hgov.lawful.schema hgov.lawful.accounts h.bare
  · have hbase : ∀ action, a ≠ .base action := fun action ha => hbase ⟨action, ha⟩
    obtain ⟨count, heq⟩ := h.world_eq hbase
    have hsame := same_of_aside (w := f.world) (h.issued_aside hbase) count
    rw [← heq] at hsame
    exact hsame.sentinel hknown.sentinel

theorem Known.content_step :
    ∀ vc ∈ f'.world.contentVCs, Company f'.world.db vc.event vc.memberData := by
  have hkeeps := h.keeps hgov.lawful
  by_cases hbase : ∃ action, a = .base action
  · obtain ⟨action, rfl⟩ := hbase
    cases h with
    | @base _ world hstep =>
      have horg := (hgov.lawful.step hstep.bare).organised
      have henr := hgov.lawful.enrolled
      have hguests : ∀ vc ∈ world.contentVCs, ∀ user ∈ vc.memberData,
          (tables world.db).Recorded user.userID vc.event.eventID := by
        refine hstep.forall_content (P := fun vc => vc ∈ f.world.contentVCs)
          (fun vc hvc => hvc) ?_ ?_ ?_ ?_
        · exact fun vc hvc => (hkeeps.company (hknown.content vc hvc)).2
        · intro uid eventID notificationID vc hopen _ user huser
          obtain ⟨event, notification, -, rfl⟩ := World.opened_eq_some hopen
          exact absurd huser List.not_mem_nil
        · intro vc vc' hvc hcall user huser
          rw [hcall.event_eq]
          apply hkeeps.recorded
          rcases hcall.mem_memberData huser with hold | ⟨⟨uid, hread⟩, hmember⟩
          · exact (hknown.content vc hvc).2 user hold
          · have hne : user.userID ≠ "" := by
              have huserKey : "user" ≠ "comment" := by decide
              have hbare := (GUser.read_hide huserKey [uid]).trans hread
              obtain ⟨huid, hne⟩ := GUser.userID_of_read hgov.lawful.schema hbare
              rwa [huid]
            rw [tables_bare]
            exact henr.held _ _ (.content (w := f.world.bare) hvc) user.userID hmember hne
        · exact fun screen vc _ _ hvc => (hkeeps.company (hknown.content vc hvc)).2
      intro vc hvc
      refine ⟨?_, hguests vc hvc⟩
      rw [organised_bare]
      exact (horg.content vc hvc).1
  · rw [h.contentVCs_eq fun action ha => hbase ⟨action, ha⟩]
    exact fun vc hvc => hkeeps.company (hknown.content vc hvc)

theorem Known.comment_step :
    ∀ s ∈ f'.commentVCs, Company f'.world.db s.vc.event s.vc.memberData := by
  have hkeeps := h.keeps hgov.lawful
  have hold : ∀ s ∈ f.commentVCs, Company f'.world.db s.vc.event s.vc.memberData :=
    fun s hs => hkeeps.company (hknown.comment s hs)
  cases h with
  | openComments hvc =>
    intro s hs
    rcases List.mem_append.mp hs with hs | hs
    · exact hold s hs
    · rw [List.mem_singleton.mp hs]
      exact hkeeps.company (hknown.content _ (List.mem_of_getElem? hvc))
  | @table _ _ held _ hs hstep _ =>
    intro s hmem
    rcases List.mem_or_eq_of_mem_set hmem with hmem | rfl
    · exact hold s hmem
    · rw [(CommentTable.step_fixed hstep).1]
      exact hold held (List.mem_of_getElem? hs)
  | _ => exact hold

theorem Known.input_step :
    ∀ input ∈ f'.inputs, Company f'.world.db input.vc.event input.vc.memberData := by
  have hkeeps := h.keeps hgov.lawful
  have hold : ∀ input ∈ f.inputs, Company f'.world.db input.vc.event input.vc.memberData :=
    fun input hinput => hkeeps.company (hknown.input input hinput)
  cases h with
  | inputPressed hs _ =>
    intro input hinput
    rcases List.mem_append.mp hinput with hinput | hinput
    · exact hold input hinput
    · rw [List.mem_singleton.mp hinput]
      exact hkeeps.company (hknown.comment _ (List.mem_of_getElem? hs))
  | @senderFetched i input _ hinput _ _ =>
    intro other hother
    rcases List.mem_or_eq_of_mem_set hother with hother | rfl
    · exact hold other hother
    · exact hold input (List.mem_of_getElem? hinput)
  | _ => exact hold

theorem Known.answer {vc : EventContentVC} (hvc : vc ∈ f.world.contentVCs)
    {notification : GNotification} (hevent : notification.eventID = vc.event.eventID)
    (huser : notification.userID = vc.event.organiserID)
    (hself : vc.event.organiserID ≠ vc.currentUser) (hauthor : f.author a = some vc.currentUser) :
    News f f' a notification := by
  have hby := (hknown.content vc hvc).1
  constructor
  · apply (h.keeps hgov.lawful).addressed
    exact ⟨vc.event.organiserID, hevent ▸ hby, .inl huser⟩
  · rw [hauthor, huser]
    exact fun heq => hself (Option.some.inj heq).symm

omit hknown in
theorem uploaded_news {screen : Nat} {runtime : Runtime} {time url autoID : String}
    {vc : AddEventVC} (ha : a = .base (.uploaded screen runtime time url))
    (hvc : f.world.addVCs[screen]? = some vc) (hphase : vc.phase = .uploading autoID)
    {notification : GNotification} (htold : told notification ∈ f.issued ids a) :
    News f f' a notification := by
  subst ha
  cases h with
  | @base _ world hstep =>
    simp only [issued, World.issued, hvc, hphase] at htold
    obtain ⟨user, huser, hwhom⟩ := AddEventVC.told_uploadEventData htold
    have hmem := List.mem_of_getElem? hvc
    have hadd := hgov.lawful.organised.add vc hmem
    have hby : OrganisedBy world.db (vc.submittedID autoID) vc.currentUser := by
      rw [OrganisedBy, hstep.db_eq, get_applyAll]
      simp only [World.issued, hvc, hphase]
      rw [uploadEventData_of_user vc runtime _ time huser, Outcome.issue_writes,
        uploaded_event vc runtime _ _ time huser, if_pos rfl]
      simp [AddEventVC.storedEvent, Event.uploadedEventData]
    have hrecorded : ∀ uid, uid ∈ removedIDs vc runtime ∨ uid ∈ editedIDs vc runtime →
        (tables world.db).Recorded uid (vc.submittedID autoID) := by
      intro uid huid
      rw [hstep.tables_eq]
      simp only [World.change, hvc, hphase]
      exact recorded_submission huser _ huid
    have hauthor : f.author (.base (.uploaded screen runtime time url)) = some vc.currentUser := by
      simp [author, World.author, hvc]
    have hother : ∀ member ∈ vc.members ++ vc.deletedMembers,
        f.author (.base (.uploaded screen runtime time url)) ≠ some member.userID := by
      intro member hmember
      rw [hauthor]
      exact fun heq => hadd.2 member hmember (Option.some.inj heq).symm
    rcases hwhom with ⟨event, hevent, member, hmember, id, rfl⟩ | ⟨member, hmember, id, rfl⟩
    · have hid : vc.submittedID autoID = event.eventID := by simp [AddEventVC.submittedID, hevent]
      rw [hid] at hby hrecorded
      refine ⟨⟨vc.currentUser, hby, .inr (hrecorded _ (.inl ?_))⟩, hother member ?_⟩
      · rw [removedIDs_of_event vc runtime hevent]
        exact List.mem_map_of_mem hmember
      · exact List.mem_append_right _ (mem_removedMembers vc runtime hmember).1
    · refine ⟨⟨vc.currentUser, hby, .inr (hrecorded _ (.inr ?_))⟩, hother member ?_⟩
      · exact List.mem_map_of_mem hmember
      · exact List.mem_append_left _ (mem_editedMembers vc runtime hmember).1

theorem Known.fetched {i : Nat} {input : Input} {writes : List Write} (ha : a = .senderFetched i)
    (hinput : f.inputs[i]? = some input)
    (hwrites : (input.writes f.world.db fun n => ids.key (f.world.drawn + n)) = some writes)
    {notification : GNotification} (htold : told notification ∈ writes) :
    News f f' a notification := by
  subst ha
  obtain ⟨hby, hmembers⟩ := hknown.input input (List.mem_of_getElem? hinput)
  rcases Input.writes_eq_some hwrites with rfl | ⟨sender, -, rfl⟩
  · exact absurd htold List.not_mem_nil
  · obtain ⟨found, hfound, heq⟩ := mem_userFetched htold
    obtain rfl := told_inj heq
    have horganiser : input.vc.event.organiserID ∉ input.vc.memberData.map (·.userID) := by
      intro hmem
      obtain ⟨member, hmember, hid⟩ := List.mem_map.mp hmem
      exact hgov.guest_ne (hmembers member hmember) hby hid.symm
    obtain ⟨hself, hwhom⟩ := (CommentVC.mem_notifications_userID horganiser _ _ _ _ _ _).mp
      (List.mem_map_of_mem (f := (·.userID)) hfound)
    obtain ⟨uid, id, rfl⟩ := CommentVC.mem_notifications hfound
    constructor
    · apply (h.keeps hgov.lawful).addressed
      refine ⟨input.vc.event.organiserID, hby, hwhom.imp_right fun hmem => ?_⟩
      obtain ⟨member, hmember, hid⟩ := List.mem_map.mp hmem
      rw [← hid]
      exact hmembers member hmember
    · rw [show f.author (.senderFetched i) = some input.currentUser by simp [author, hinput]]
      exact fun heq => hself (Option.some.inj heq).symm

theorem Known.news {notification : GNotification} (htold : told notification ∈ f.issued ids a) :
    News f f' a notification := by
  have hstep := h
  cases h with
  | @base action world h =>
    cases h with
    | saveUser _ => simp [issued, World.issued, told] at htold
    | @agree screen vc prompt hvc hprompt =>
      have hmem := List.mem_of_getElem? hvc
      simp only [issued, World.issued, hvc, hprompt, Option.map_some, Option.getD_some,
        EventContentVC.agree, List.mem_cons, List.not_mem_nil, or_false] at htold
      rcases htold with htold | htold | htold | htold
      · obtain rfl : notification = vc.agreeNotification prompt := told_inj htold
        exact hknown.answer hgov hstep hmem rfl rfl (hknown.prompt_self hgov hmem hprompt)
          (by simp [author, World.author, hvc])
      · cases htold
      · cases htold
      · cases htold
    | @reject screen vc prompt held hvc hprompt hheld =>
      have hmem := List.mem_of_getElem? hvc
      simp only [issued, World.issued, hvc, hprompt, Option.map_some, Option.getD_some,
        EventContentVC.reject, hheld, Outcome.issue_writes, List.mem_cons, List.not_mem_nil,
        or_false] at htold
      rcases htold with htold | htold | htold | htold | htold
      · cases htold
      · cases htold
      · cases htold
      · cases htold
      · obtain rfl : notification = vc.rejectNotification prompt := told_inj htold
        exact hknown.answer hgov hstep hmem rfl rfl (hknown.prompt_self hgov hmem hprompt)
          (by simp [author, World.author, hvc])
    | @dropOut screen time vc hvc hself _ =>
      simp only [issued, World.issued, hvc, EventContentVC.dropOut, List.mem_cons,
        List.not_mem_nil, or_false] at htold
      rcases htold with htold | htold | htold
      · simp [told] at htold
      · cases htold
      · obtain rfl : notification = vc.dropOutNotification _ time := told_inj htold
        exact hknown.answer hgov hstep (List.mem_of_getElem? hvc) rfl rfl hself.symm
          (by simp [author, World.author, hvc])
    | uploaded hvc hphase => exact uploaded_news hgov hstep rfl hvc hphase htold
    | _ => exact absurd htold List.not_mem_nil
  | @table screen action s s' hs _ _ =>
    simp only [issued, hs] at htold
    rcases written_eq s action with heq | ⟨row, comment, -, -, -, heq⟩ <;>
      simp [heq, told] at htold
  | inputPressed hs huser => simp [issued, hs, huser, CommentVC.inputPressed, told] at htold
  | senderFetched hinput _ hwrites =>
    simp only [issued, hinput, hwrites, Option.getD_some] at htold
    exact hknown.fetched hgov hstep rfl hinput hwrites htold
  | didSelectRow hinbox hrow =>
    simp [issued, hinbox, NotificationVC.didSelectRowAt, hrow, told] at htold
  | _ => exact absurd htold List.not_mem_nil

/-- A notification that is stored after a step was stored before it, perhaps not yet
marked, or is news. -/
theorem Known.read_cases {id : String} {notification : GNotification}
    (hread : GNotification.read f'.world.db ["notification", id] = some notification) :
    (∃ before, GNotification.read f.world.db ["notification", id] = some before ∧
      before.Later notification) ∨
    (¬Noticed f.world.db id ∧ ∃ before, News f f' a before ∧ before.Later notification) := by
  by_cases hid : id ∈ notificationLedger.posted (f.issued ids a)
  · obtain ⟨before, -, htold, after, hafter, hlater⟩ := hgov.told.posted h hid
    obtain rfl : notification = after := Option.some.inj (hread.symm.trans hafter)
    exact .inr ⟨hgov.told.not_noticed h hid, before, hknown.news hgov h htold, hlater⟩
  · have hnode : Noticed f.world.db id :=
      (hgov.told.kept h hid).contains.symm.trans (Noticed.of_read hread)
    obtain ⟨before, hbefore, -⟩ := hgov.told.complete id hnode
    obtain ⟨after, hafter, hlater⟩ := hgov.told.read_later h hbefore
    obtain rfl : notification = after := Option.some.inj (hread.symm.trans hafter)
    exact .inl ⟨before, hbefore, hlater⟩

theorem Known.step : Known f' where
  sentinel := hknown.sentinel_step hgov h
  content := hknown.content_step hgov h
  comment := hknown.comment_step hgov h
  input := hknown.input_step hgov h
  stored id notification hread := by
    rcases hknown.read_cases hgov h hread with ⟨before, hbefore, hlater⟩ | ⟨-, before, hnews, hlater⟩
    · exact ((h.keeps hgov.lawful).addressed (hknown.stored id before hbefore)).later hlater
    · exact hnews.addressed.later hlater

end Steps

theorem known_reachable (h : Reachable (step ids) Feed.empty f) : Governed ids f ∧ Known f := by
  refine h.invariant (fun f => Governed ids f ∧ Known f) ⟨Governed.empty ids, Known.empty⟩ ?_
  intro s a s' hs hstep
  have hstep := Step.of_step ids hstep
  exact ⟨hs.1.step hstep, hs.2.step hs.1 hstep⟩

theorem Known.read_event (hknown : Known f) (hgov : Governed ids f) {eventID : String}
    (hnode : f.world.db.contains ["event", eventID] = true) : ∃ event,
    Event.read f.world.db ["event", eventID] = some event ∧ event.eventID = eventID ∧
      OrganisedBy f.world.db eventID event.organiserID ∧
      (tables f.world.db).memberIDs eventID = event.memberIDs := by
  have hne : "event" ≠ "comment" := by decide
  obtain ⟨event, hbare, -⟩ := hknown.sentinel.stored eventID
    ((Store.contains_hide hne _).trans hnode)
  have hevent : Event.read f.world.db ["event", eventID] = some event :=
    (Event.read_hide hne _).symm.trans hbare
  obtain ⟨-, hby, -, hmembers, -⟩ := Event.read_eq_some.mp hevent
  refine ⟨event, hevent, Event.eventID_of_read hgov.lawful.schema hbare, hby, ?_⟩
  exact congrArg (·.getD []) (Store.array?_eq_some.mpr hmembers)

/-- Every notification that is stored is about a stored event, which reads back when it is
tapped, and goes to the organiser of that event or to someone with an invitation to it. -/
theorem told_of_stored_events (ids : AutoId) (f : Feed) (h : Reachable (step ids) Feed.empty f)
    (id : String) (notification : GNotification)
    (hread : GNotification.read f.world.db ["notification", id] = some notification) :
    ∃ event, NotificationVC.fetchEvent f.world.db notification.eventID = some (some event) ∧
      event.eventID = notification.eventID ∧
      (notification.userID = event.organiserID ∨ f.world.db.contains
        ["invitingEventList", notification.userID, notification.eventID] = true) := by
  obtain ⟨hgov, hknown⟩ := known_reachable h
  obtain ⟨organiserID, hby, hwho⟩ := hknown.stored id notification hread
  have hlist : "invitingEventList" ≠ "comment" := by decide
  have hnode : f.world.db.contains ["event", notification.eventID] = true :=
    (Store.contains_iff _ _).mpr ⟨["organiserID"], _, hby⟩
  obtain ⟨event, hevent, heventID, hstored, -⟩ := hknown.read_event hgov hnode
  have horganiser : organiserID = event.organiserID := by simpa using hby.symm.trans hstored
  refine ⟨event, ?_, heventID, ?_⟩
  · rw [NotificationVC.fetchEvent, if_pos hnode, hevent]
    rfl
  · rw [← horganiser]
    apply hwho.imp_right
    intro hrecorded
    rw [tables_bare] at hrecorded
    rw [← Store.contains_hide hlist]
    exact (World.contains_iff_recorded hgov.lawful.schema _ _).mpr hrecorded

theorem told_of_stored_events_invitation : ∃ f notification event,
    exec (step .unary) Feed.empty invitation = some f ∧
      GNotification.read f.world.db ["notification", "kk"] = some notification ∧
      NotificationVC.fetchEvent f.world.db notification.eventID = some (some event) := by
  have hrun : ((exec (step .unary) Feed.empty invitation).any fun f =>
      (GNotification.read f.world.db ["notification", "kk"]).isSome) = true := by decide
  obtain ⟨f, hf, hsome⟩ := (Option.any_eq_true _ _).mp hrun
  obtain ⟨notification, hread⟩ := Option.isSome_iff_exists.mp hsome
  obtain ⟨event, hfetch, -⟩ :=
    told_of_stored_events .unary f ⟨invitation, hf⟩ "kk" notification hread
  exact ⟨f, notification, event, hf, hread, hfetch⟩

/-- Whatever an account does, what is told of it goes to others: to the organiser of the
event or to someone invited to it. -/
theorem nobody_told_of_own_action (ids : AutoId) (f f' : Feed) (a : Action)
    (h : Reachable (step ids) Feed.empty f) (hstep : step ids f a = some f') (id : String)
    (hnew : f.world.db.contains ["notification", id] = false) (notification : GNotification)
    (hread : GNotification.read f'.world.db ["notification", id] = some notification) :
    f.author a ≠ some notification.userID ∧ Addressed f'.world.db notification := by
  obtain ⟨hgov, hknown⟩ := known_reachable h
  rcases hknown.read_cases hgov (Step.of_step ids hstep) hread with ⟨before, hbefore, -⟩ |
    ⟨-, before, hnews, hlater⟩
  · exact absurd ((Noticed.of_read hbefore).symm.trans hnew) (by simp)
  · have huser : notification.userID = before.userID := by rw [hlater.fields]
    rw [huser]
    exact ⟨hnews.other, hnews.addressed.later hlater⟩

theorem nobody_told_of_own_action_joining : ∃ f f' notification,
    exec (step .unary) Feed.empty prompted = some f ∧
      step .unary f (.base (.agree 0)) = some f' ∧
      GNotification.read f'.world.db ["notification", "kkk"] = some notification ∧
      f.author (.base (.agree 0)) ≠ some notification.userID := by
  have hrun : ((exec (step .unary) Feed.empty prompted).any fun f =>
      (f.world.db.contains ["notification", "kkk"] = false : Bool) &&
        (step .unary f (.base (.agree 0))).any fun f' =>
          (GNotification.read f'.world.db ["notification", "kkk"]).isSome) = true := by decide
  obtain ⟨f, hf, hrest⟩ := (Option.any_eq_true _ _).mp hrun
  rw [Bool.and_eq_true] at hrest
  obtain ⟨f', hf', hsome⟩ := (Option.any_eq_true _ _).mp hrest.2
  obtain ⟨notification, hread⟩ := Option.isSome_iff_exists.mp hsome
  exact ⟨f, f', notification, hf, hf', hread, (nobody_told_of_own_action .unary f f' _
    ⟨prompted, hf⟩ hf' "kkk" (of_decide_eq_true hrest.1) notification hread).1⟩

end Feed

end GetTogether
