import GetTogether.Roster.Exclusive
import GetTogether.World.Mirror
import GetTogether.World.Organisers

/-! Whether anyone is a member and still to be asked. An array is written from the copy its
screen holds, and the search for members asks only the list on the screen for duplicates; a
copy that is out of date, or a list that has not arrived, brings the two together. -/
namespace GetTogether.World

open Realtime Roster

variable {ids : AutoId} {w w' : World} {a : Action}

/-- A screen without a notification, which is one opened from the main screen, shows no
prompt and has read no unanswered invitation to its event. -/
def Unprompted (vc : EventContentVC) : Prop :=
  vc.notification = none → vc.answerSelector = none ∧
    ∀ list ∈ vc.userFetches, list.eventID = vc.event.eventID → list.isReply = true

/-- No member is still to be asked, no one is a member twice, and no event opened from the
main screen prompts, so that answering no finds its notification. -/
structure NoOneTwice (w : World) : Prop where
  exclusive : ∀ eventID uid, ¬(uid ∈ (w.db.array? ["event", eventID, "memberIDs"]).getD [] ∧
    w.db.bool? ["invitingEventList", uid, eventID, "isReply"] = some false)
  nodup : ∀ eventID, ((w.db.array? ["event", eventID, "memberIDs"]).getD []).Nodup
  unprompted : ∀ vc ∈ w.contentVCs, Unprompted vc

/-- Nobody the copy names, the given users apart, has an unanswered invitation. -/
def NoneAsked (w : World) (copy : Event) (named : List String) : Prop :=
  ∀ uid ∈ copy.memberIDs, uid ∉ named →
    w.db.bool? ["invitingEventList", uid, copy.eventID, "isReply"] ≠ some false

/-- A submission that gets to its last write leaves nobody in the array who is asked, and
invites nobody in the copy: no one in `Set(members)` that neither a deleted nor an original
member hashes to. One that stops in its first invitation invites nobody in the array. -/
structure EditsApart (w : World) (vc : AddEventVC) (runtime : Runtime) (event : Event) : Prop where
  asked : Completes vc runtime → w.NoneAsked event (removedIDs vc runtime)
  outsiders : Completes vc runtime → ∀ member ∈ KeyedSet.ofArray runtime.hash vc.members,
    runtime.hash member ∉ vc.deletedMembers.map runtime.hash →
    runtime.hash member ∉ vc.originalMemers.map runtime.hash → member.userID ∉ event.memberIDs
  stopped : vc.user = none → removedIDs vc runtime = [] →
    ∀ first, (editedIDs vc runtime).head? = some first →
      first ∉ (w.db.array? ["event", event.eventID, "memberIDs"]).getD []

/-- No array is written from a copy that names someone who is asked, no one accepts who is
in the copy already, and no screen opened from the main screen reads an unanswered
invitation to its event. -/
def KeepsApart (w : World) : Action → Prop
  | .queryEventList screen => ∀ vc, w.contentVCs[screen]? = some vc → vc.notification = none →
    w.db.bool? ["invitingEventList", vc.currentUser, vc.event.eventID, "isReply"] ≠ some false
  | .agree screen => ∀ vc, w.contentVCs[screen]? = some vc →
    vc.currentUser ∉ vc.event.memberIDs ∧ w.NoneAsked vc.event []
  | .dropOut screen _ => ∀ vc, w.contentVCs[screen]? = some vc →
    w.NoneAsked vc.event [vc.currentUser]
  | .uploaded screen runtime _ _ => ∀ vc autoID event, w.addVCs[screen]? = some vc →
    vc.phase = .uploading autoID → vc.event = some event → w.EditsApart vc runtime event
  | _ => True

theorem answered_tables (db : Store) (uid eventID : String) :
    ((tables db).invitingEventList uid eventID).pending = false ↔
      db.bool? ["invitingEventList", uid, eventID, "isReply"] ≠ some false := by
  rw [← Bool.not_eq_true, pending_tables]

theorem noOneTwice_iff : w.NoOneTwice ↔
    (tables w.db).Exclusive ∧ ∀ vc ∈ w.contentVCs, Unprompted vc := by
  constructor
  · intro h
    refine ⟨⟨fun eventID uid hmember => ?_, h.nodup⟩, h.unprompted⟩
    rw [answered_tables]
    exact fun hasked => h.exclusive eventID uid ⟨hmember, hasked⟩
  · intro h
    refine ⟨fun eventID uid hboth => ?_, h.1.nodup, h.2⟩
    exact (answered_tables _ _ _).mp (h.1.answered eventID uid hboth.1) hboth.2

/-! The arrays. -/

section Arrays

variable (hex : (tables w.db).Exclusive)

include hex

theorem exclusive_completed_iff {vc : AddEventVC} {runtime : Runtime} {event : Event}
    (hevent : vc.event = some event) (hnodup : event.memberIDs.Nodup)
    (hcompletes : Completes vc runtime) :
    ((Change.submit event.eventID (removedIDs vc runtime) (editedIDs vc runtime)
      (some (vc.finalMemberIDs runtime))).apply (tables w.db)).Exclusive ↔
        w.EditsApart vc runtime event := by
  have hfinal : ∀ members ∈ some (vc.finalMemberIDs runtime), members.Nodup := by
    intro members hmembers
    obtain rfl := Option.some.inj hmembers
    apply finalMemberIDs_nodup
    rintro _ hsame
    exact Option.some.inj (hevent.symm.trans hsame) ▸ hnodup
  simp only [Change.apply]
  rw [Tables.exclusive_submit_iff hex _ _ _ hfinal]
  simp only [Option.getD_some, mem_finalMemberIDs vc runtime hevent, answered_tables]
  constructor
  · intro hafter
    refine ⟨fun _ uid hheld hstays => (hafter uid ⟨hheld, hstays⟩).2, ?_, ?_⟩
    · intro _ member hmember hdeleted horiginal hheld
      have hedited := (mem_editedIDs_iff vc runtime).mpr
        ⟨member, hmember, hdeleted, horiginal, rfl⟩
      exact (hafter member.userID
        ⟨hheld, not_mem_removedIDs_of_mem_editedIDs vc runtime hedited⟩).1 hedited
    · intro hnone _ first hfirst
      have hstops := hcompletes.resolve_left (by simp [hnone])
      simp [hstops.2] at hfirst
  · rintro hapart uid ⟨hheld, hstays⟩
    refine ⟨fun hedited => ?_, hapart.asked hcompletes uid hheld hstays⟩
    obtain ⟨member, hmember, hdeleted, horiginal, rfl⟩ := (mem_editedIDs_iff vc runtime).mp hedited
    exact hapart.outsiders hcompletes member hmember hdeleted horiginal hheld

theorem exclusive_submission_iff {vc : AddEventVC} {runtime : Runtime} {event : Event}
    (hevent : vc.event = some event) (hnodup : event.memberIDs.Nodup) :
    ((submission vc runtime event.eventID).apply (tables w.db)).Exclusive ↔
      w.EditsApart vc runtime event := by
  have hwhole : Completes vc runtime → _ := exclusive_completed_iff hex hevent hnodup
  unfold submission
  split
  · next huser => exact hwhole (.inl (by simp [huser]))
  · next huser hremoved =>
    have hstops : ¬Completes vc runtime := by simp [Completes, huser, hremoved]
    refine iff_of_true hex ⟨fun h => absurd h hstops, fun h => absurd h hstops, ?_⟩
    intro _ hnil
    cases hremoved.symm.trans hnil
  · next first rest huser hremoved hedited =>
    have hstops : ¬Completes vc runtime := by simp [Completes, huser, hedited]
    simp only [Change.apply]
    rw [Tables.exclusive_submit_iff hex _ _ _ (by simp)]
    constructor
    · intro hafter
      refine ⟨fun h => absurd h hstops, fun h => absurd h hstops, ?_⟩
      intro _ _ uid huid hmember
      rw [hedited] at huid
      exact (hafter uid hmember).1 (by simpa [eq_comm] using huid)
    · intro hapart uid hmember
      refine ⟨fun hinvited => ?_, hex.answered event.eventID uid hmember⟩
      obtain rfl := List.mem_singleton.mp hinvited
      exact hapart.stopped huser hremoved uid (by simp [hedited]) hmember
  · next huser hremoved hedited =>
    have h := hwhole (.inr ⟨hremoved, hedited⟩)
    rwa [hremoved, hedited] at h

/-- A new event starts with nobody but the empty user in its array, who is never asked. -/
theorem exclusive_submission_new (hlaw : Lawful ids w) (hmir : Mirror w) {vc : AddEventVC}
    {runtime : Runtime} {screen : Nat} {autoID : String} (hvc : w.addVCs[screen]? = some vc)
    (hphase : vc.phase = .uploading autoID) (hevent : vc.event = none) :
    ((submission vc runtime autoID).apply (tables w.db)).Exclusive := by
  obtain ⟨log, hchr⟩ := hlaw.chronicle
  have hunused := (hchr.uploading screen vc autoID hvc hphase).2 hevent
  have hempty : ((tables w.db).invitingEventList "" autoID).pending = false := by
    rw [← Bool.not_eq_true]
    exact fun hasked => (hmir.registered "" autoID hasked).ne_empty hlaw.schema rfl
  have hedited : "" ∉ editedIDs vc runtime := by
    intro hinvited
    obtain ⟨user, huser, hid⟩ := List.mem_map.mp (mem_editedIDs vc runtime hinvited).1
    have hadd := (hlaw.accounts.add vc (List.mem_of_getElem? hvc)).2 user (by simp [huser])
    exact hadd.ne_empty hlaw.schema hid
  have hfinal := finalMemberIDs_of_new vc runtime hevent
  unfold submission
  split
  · simp only [Change.apply]
    rw [Tables.exclusive_submit_iff hex _ _ _ (by simp [hfinal])]
    simpa [hfinal] using ⟨hedited, hempty⟩
  · exact hex
  · simp only [Change.apply]
    rw [Tables.exclusive_submit_iff hex _ _ _ (by simp)]
    simp [hunused.stored]
  · simp only [Change.apply]
    rw [Tables.exclusive_submit_iff hex _ _ _ (by simp [hfinal])]
    simpa [hfinal] using hempty

/-- One action keeps members and pending invitees apart exactly when the copy it writes an
array from does. -/
theorem Step.exclusive_iff (h : Step ids w a w') (hlaw : Lawful ids w) (hmir : Mirror w)
    (hheld : ∀ eventID memberIDs, w.Held eventID memberIDs → memberIDs.Nodup)
    (ha : ∀ screen, a ≠ .queryEventList screen) :
    (tables w'.db).Exclusive ↔ w.KeepsApart a := by
  have hiff := h.tables_eq
  cases h with
  | queryEventList _ _ => exact absurd rfl (ha _)
  | @agree screen vc prompt hvc hprompt =>
    simp only [change, hvc, Change.apply] at hiff
    have hnodup := hheld _ _ (.content (List.mem_of_getElem? hvc))
    rw [hiff, Tables.exclusive_accept_iff hex _ _ hnodup]
    simp [KeepsApart, hvc, NoneAsked, answered_tables]
  | reject hvc _ _ =>
    simp only [change, hvc, Change.apply] at hiff
    rw [hiff]
    exact iff_of_true (Tables.exclusive_reject hex _ _) trivial
  | @dropOut screen time vc hvc _ _ =>
    simp only [change, hvc, Change.apply] at hiff
    have hnodup := hheld _ _ (.content (List.mem_of_getElem? hvc))
    rw [hiff, Tables.exclusive_dropOut_iff hex _ _ hnodup]
    simp [KeepsApart, hvc, NoneAsked, answered_tables]
  | @uploaded screen runtime time url autoID vc hvc hphase =>
    simp only [change, hvc, hphase] at hiff
    rw [hiff]
    cases hevent : vc.event with
    | none =>
      rw [AddEventVC.submittedID, hevent]
      refine iff_of_true (exclusive_submission_new hex hlaw hmir hvc hphase hevent) ?_
      intro other _ event hother _ hsome
      obtain rfl := Option.some.inj (hvc.symm.trans hother)
      cases hevent.symm.trans hsome
    | some event =>
      have hnodup := hheld _ _ (.add (List.mem_of_getElem? hvc) hevent)
      rw [AddEventVC.submittedID, hevent, exclusive_submission_iff hex hevent hnodup]
      constructor
      · intro hapart other _ held hother _ hsome
        obtain rfl := Option.some.inj (hvc.symm.trans hother)
        exact Option.some.inj (hevent.symm.trans hsome) ▸ hapart
      · exact fun hapart => hapart vc autoID event hvc hphase hevent
  | saveUser _ => exact iff_of_true (tables_saveUser w.db _ ▸ hex) trivial
  | _ => exact iff_of_true hex trivial

end Arrays

/-! The prompts. -/

theorem forall_set_iff {α : Type} {P : α → Prop} {items : List α} {i : Nat} {old new : α}
    (hold : items[i]? = some old) (hitems : ∀ item ∈ items, P item) :
    (∀ item ∈ items.set i new, P item) ↔ P new := by
  constructor
  · intro hset
    exact hset new (List.mem_set (List.getElem?_eq_some_iff.mp hold).1 new)
  · intro hnew item hitem
    rcases List.mem_or_eq_of_mem_set hitem with hitem | rfl
    · exact hitems item hitem
    · exact hnew

theorem unprompted_queryEventList_iff {db : Store} (hdb : db.Within Schema)
    {vc vc' : EventContentVC} (hvc : Unprompted vc) (h : vc.queryEventList db = some vc') :
    Unprompted vc' ↔ (vc.notification = none →
      db.bool? ["invitingEventList", vc.currentUser, vc.event.eventID, "isReply"] ≠ some false) := by
  obtain ⟨lists, hlists, rfl⟩ := EventContentVC.queryEventList_eq_some h
  constructor
  · intro hquiet hnone hasked
    have hchild : vc.event.eventID ∈ db.children ["invitingEventList", vc.currentUser] := by
      rw [Store.mem_children_iff_contains, Store.contains_iff]
      exact ⟨["isReply"], _, Store.bool?_eq_some.mp hasked⟩
    have hsome := mapM_isSome_iff.mp (Option.isSome_of_eq_some hlists) _ hchild
    obtain ⟨list, hlist⟩ := Option.isSome_iff_exists.mp hsome
    have hmem : list ∈ lists := (mem_mapM_iff hlists list).mpr ⟨_, hchild, hlist⟩
    have hreply := (hquiet hnone).2 list (List.mem_append_right _ hmem)
      (EventList.eventID_of_read hdb hlist)
    have hleaf := Store.bool?_eq_some.mpr (EventList.read_eq_some.mp hlist).2.1
    simp only [List.cons_append, List.nil_append] at hleaf
    rw [hasked, hreply] at hleaf
    exact absurd hleaf nofun
  · intro hanswered hnone
    refine ⟨(hvc hnone).1, fun list hlist heq => ?_⟩
    rcases List.mem_append.mp hlist with hold | hnew
    · exact (hvc hnone).2 list hold heq
    · obtain ⟨key, hkey⟩ := EventContentVC.mem_readEventLists hlists hnew
      have hreply := (EventList.read_eq_some.mp hkey).2.1
      rw [← EventList.eventID_of_read hdb hkey, heq] at hreply
      cases hflag : list.isReply with
      | true => rfl
      | false =>
        rw [hflag] at hreply
        exact absurd (Store.bool?_eq_some.mpr hreply) (hanswered hnone)

theorem Unprompted.userFetched {db : Store} {vc vc' : EventContentVC} (hvc : Unprompted vc)
    {eventList : EventList} {time notificationID : String} (hlist : eventList ∈ vc.userFetches)
    (h : vc.userFetched db eventList time notificationID = some vc') : Unprompted vc' := by
  rcases EventContentVC.userFetched_eq_some h with rfl | ⟨user, -, heq, hreply, rfl⟩ | rfl
  · exact hvc
  · intro hnone
    have hanswered := (hvc hnone).2 eventList hlist heq
    rw [hreply] at hanswered
    cases hanswered
  · exact hvc

/-- Only the list of invitations can bring a prompt to a screen without a notification. -/
theorem Step.unprompted_iff (h : Step ids w a w') (hdb : w.db.Within Schema)
    (hquiet : ∀ vc ∈ w.contentVCs, Unprompted vc) :
    (∀ vc ∈ w'.contentVCs, Unprompted vc) ↔
      ∀ screen, a = .queryEventList screen → w.KeepsApart a := by
  have hmem : ∀ {screen vc}, w.contentVCs[screen]? = some vc → Unprompted vc := fun hvc =>
    hquiet _ (List.mem_of_getElem? hvc)
  cases h with
  | @queryEventList screen vc vc' hvc hload =>
    have hiff := unprompted_queryEventList_iff hdb (hmem hvc) hload
    have hset : (∀ vc ∈ w.contentVCs.set screen vc', Unprompted vc) ↔ _ :=
      forall_set_iff hvc hquiet
    rw [show (w.setContent screen vc').contentVCs = w.contentVCs.set screen vc' from rfl, hset, hiff]
    simp [KeepsApart, hvc]
  | openEvent hopen _ =>
    refine iff_of_true (fun vc hvc => ?_) nofun
    rcases List.mem_append.mp hvc with hold | hnew
    · exact hquiet vc hold
    · obtain ⟨event, notification, -, rfl⟩ := opened_eq_some hopen
      obtain rfl := List.mem_singleton.mp hnew
      exact fun _ => ⟨rfl, fun list hlist => absurd hlist List.not_mem_nil⟩
  | userFetched hvc hlist hload =>
    refine iff_of_true ((forall_set_iff hvc hquiet).mpr ?_) nofun
    exact (hmem hvc).userFetched (List.mem_of_getElem? hlist) hload
  | queryUserData hvc hload =>
    refine iff_of_true ((forall_set_iff hvc hquiet).mpr ?_) nofun
    have hold := hmem hvc
    obtain ⟨users, -, ⟨-, rfl⟩ | ⟨-, rfl⟩⟩ := EventContentVC.queryUserData_eq_some hload <;>
      exact hold
  | agree hvc _ =>
    refine iff_of_true ((forall_set_iff hvc hquiet).mpr ?_) nofun
    exact fun hnone => ⟨rfl, (hmem hvc hnone).2⟩
  | reject hvc _ _ =>
    refine iff_of_true ((forall_set_iff hvc hquiet).mpr ?_) nofun
    exact fun hnone => ⟨rfl, (hmem hvc hnone).2⟩
  | _ => exact iff_of_true hquiet nofun

theorem nodup_held_step (h : Step ids w a w') (hdb : w.db.Within Schema)
    (hheld : ∀ eventID memberIDs, w.Held eventID memberIDs → memberIDs.Nodup)
    (hex : (tables w.db).Exclusive) (hkeeps : w.KeepsApart a) :
    ∀ eventID memberIDs, w'.Held eventID memberIDs → memberIDs.Nodup := by
  refine h.forall_held hdb hheld ?_ ?_
  · intro eventID memberIDs hstored
    have hnodup := hex.nodup eventID
    simp only [tables, hstored, Option.getD_some] at hnodup
    exact hnodup
  · rintro screen vc rfl hvc
    have hout := (hkeeps vc hvc).1
    have hnodup := hheld _ _ (.content (List.mem_of_getElem? hvc))
    rw [← List.concat_eq_append, List.nodup_concat]
    exact ⟨hout, hnodup⟩

/-- In every state of a run, whatever screens act on whatever copies, no member is still to
be asked, no one is a member twice and no event opened from the main screen prompts, exactly
when every step keeps them apart. -/
theorem no_one_twice_iff (ids : AutoId) (actions : List Action) :
    Always (step ids) NoOneTwice World.empty actions ↔
      EachStep (step ids) KeepsApart World.empty actions := by
  refine always_iff_eachStep (fun w => Lawful ids w ∧ Mirror w ∧
    ∀ eventID memberIDs, w.Held eventID memberIDs → memberIDs.Nodup) ?_ ?_ ?_ ?_ actions
  · rintro w a w' ⟨hlaw, hmir, hheld⟩ hgood hstep
    have h := Step.of_step ids hstep
    obtain ⟨hex, hquiet⟩ := noOneTwice_iff.mp hgood
    rw [noOneTwice_iff, h.unprompted_iff hlaw.schema hquiet]
    by_cases ha : ∃ screen, a = .queryEventList screen
    · obtain ⟨screen, rfl⟩ := ha
      have hsame : w'.db = w.db := by
        cases h
        rfl
      simp [hsame, hex]
    · have hother : ∀ screen, a ≠ .queryEventList screen := fun screen heq => ha ⟨screen, heq⟩
      rw [h.exclusive_iff hex hlaw hmir hheld hother]
      exact and_iff_left fun screen heq => absurd heq (hother screen)
  · rintro w a w' ⟨hlaw, hmir, hheld⟩ hgood hkeeps hstep
    have h := Step.of_step ids hstep
    exact ⟨hlaw.step h, hmir.step hlaw.accounts h,
      nodup_held_step h hlaw.schema hheld (noOneTwice_iff.mp hgood).1 hkeeps⟩
  · refine ⟨Lawful.empty ids, Mirror.empty, fun eventID memberIDs hcopy => ?_⟩
    rcases hcopy with ⟨vc, hvc, -⟩ | ⟨vc, hvc, -⟩ <;> exact absurd hvc List.not_mem_nil
  · refine ⟨fun eventID uid => ?_, fun eventID => ?_, fun vc hvc => absurd hvc List.not_mem_nil⟩
    · simp [World.empty, Store.bool?]
    · simp [World.empty, Store.array?]

/-- Bob accepts; Alice presses edit before the members have arrived, and adds him. -/
def editedTooEarly : List Action :=
  creation ++ [.openEvent "bob" "k" (some "kk"), .queryEventList 0, .userFetched 0 0 "2018-12-02",
    .agree 0, .openEvent "alice" "k" none, .editEvent 1, .queryOrganiserData 1,
    .didUpdateMember 1 bob, .done 1, .uploaded 1 .inOrder "2018-12-03" "party.jpg"]

/-- Bob opens the event from his main screen and answers yes once more. -/
def answeredAgain : List Action :=
  [.openEvent "bob" "k" none, .queryEventList 2, .userFetched 2 0 "2018-12-04", .agree 2]

/-- Bob is a member and asked again; his answer yes names him twice. -/
theorem member_asked_again : ∃ w, exec (step .unary) World.empty editedTooEarly = some w ∧
    "bob" ∈ (w.db.array? ["event", "k", "memberIDs"]).getD [] ∧
    w.db.bool? ["invitingEventList", "bob", "k", "isReply"] = some false ∧
    ∃ w', exec (step .unary) w answeredAgain = some w' ∧
      w'.db.array? ["event", "k", "memberIDs"] = some ["", "bob", "bob"] := by
  have hrun : ((exec (step .unary) World.empty editedTooEarly).any fun w =>
      "bob" ∈ (w.db.array? ["event", "k", "memberIDs"]).getD [] ∧
      w.db.bool? ["invitingEventList", "bob", "k", "isReply"] = some false ∧
      ((exec (step .unary) w answeredAgain).any fun w' =>
        w'.db.array? ["event", "k", "memberIDs"] = some ["", "bob", "bob"]) = true) = true := by
    decide
  obtain ⟨w, hw, hbob⟩ := (Option.any_eq_true _ _).mp hrun
  obtain ⟨hmember, hasked, hagain⟩ := of_decide_eq_true hbob
  obtain ⟨w', hw', htwice⟩ := (Option.any_eq_true _ _).mp hagain
  exact ⟨w, hw, hmember, hasked, w', hw', of_decide_eq_true htwice⟩

end GetTogether.World
