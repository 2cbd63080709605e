import GetTogether.Feed.Rules

/-! Handlers that run at the same time. The app takes no locks and writes each record on
its own, so the writes of two handlers can reach the database mixed. As long as the
handlers are about different events, comments and users, nobody can tell. -/
namespace GetTogether

open Realtime Roster

namespace Feed

variable {ids : AutoId} {f f' : Feed} {a : Action} {known : String → Prop}

structure Handled where
  subject : Option Topic
  writes : List Write

def handled (ids : AutoId) : Feed → List Action → List Handled
  | _, [] => []
  | f, a :: rest => ⟨f.subject ids a, f.issued ids a⟩ ::
      ((step ids f a).map fun f' => handled ids f' rest).getD []

theorem handled_cons (hstep : step ids f a = some f') (rest : List Action) :
    handled ids f (a :: rest) = ⟨f.subject ids a, f.issued ids a⟩ :: handled ids f' rest := by
  rw [handled, hstep]
  rfl

theorem db_of_handled {actions : List Action} (hrun : exec (step ids) f actions = some f') :
    f'.world.db = f.world.db.applyAll ((handled ids f actions).map (·.writes)).flatten := by
  induction actions generalizing f with
  | nil =>
    obtain rfl := Option.some.inj hrun
    rfl
  | cons a rest ih =>
    obtain ⟨f₁, hstep, hrest⟩ := Option.bind_eq_some_iff.mp hrun
    rw [ih hrest, handled_cons hstep, (Step.of_step ids hstep).db_eq, List.map_cons,
      List.flatten_cons]
    exact List.foldl_append.symm

theorem topic_told (notification : GNotification) :
    topic (told notification).path = some (.notification notification.notificationID) := rfl

/-- Two writes agree, where the second comes from a later handler about something else: what
the first tells is new and known to the second, what the second tells is new to both. -/
theorem agrees_of_parts {subject subject' : Option Topic} {write other : Write}
    (h : Part known subject write) (h' : Part known subject' other)
    (hsubject : ∀ one, subject = some one → subject' ≠ some one)
    (hfirst : ∀ notification, write = told notification → ¬known notification.notificationID)
    (hsecond : ∀ notification, other = told notification → ¬known notification.notificationID)
    (hboth : ∀ notification notification', write = told notification → other = told notification' →
      notification.notificationID ≠ notification'.notificationID) : write.Agrees other := by
  have hagree : ∀ {one one' : Topic}, topic write.path = some one → topic other.path = some one' →
      one ≠ one' → write.Agrees other := Write.agrees_of_topic hereditary_topic
  cases h with
  | about htopic hne =>
    cases h' with
    | about htopic' _ => exact hagree htopic htopic' fun hsame => hsubject _ rfl (congrArg _ hsame.symm)
    | told notification => exact hagree htopic (topic_told notification) (hne _)
    | marked _ _ => exact hagree htopic rfl (hne _)
  | told notification =>
    have hmine := topic_told notification
    cases h' with
    | about htopic' hne' => exact hagree hmine htopic' (hne' _).symm
    | told notification' =>
      apply hagree hmine (topic_told notification')
      simpa using hboth notification notification' rfl rfl
    | @marked _ id _ hknown _ =>
      apply hagree hmine rfl
      rintro hsame
      obtain rfl := Topic.notification.inj hsame
      exact hfirst notification rfl hknown
  | @marked _ id field hknown _ =>
    cases h' with
    | about htopic' hne' => exact hagree rfl htopic' (hne' _).symm
    | told notification' =>
      apply hagree rfl (topic_told notification')
      rintro hsame
      obtain rfl := Topic.notification.inj hsame
      exact hsecond notification' rfl hknown
    | @marked _ id' field' _ _ =>
      by_cases hsame : id = id'
      · subst hsame
        exact Write.agrees_updateChildValues _ field field' _
      · exact hagree rfl rfl (by simpa using hsame)

/-- Only notifications that are known already are on screens, and all of them are stored. -/
structure Shown (known : String → Prop) (f : Feed) : Prop where
  content : ∀ vc ∈ f.world.contentVCs, ∀ notification, vc.notification = some notification →
    known notification.notificationID
  inboxes : ∀ inbox ∈ f.inboxes, ∀ notification ∈ inbox.vc.notificationData,
    known notification.notificationID
  noticed : ∀ id, known id → Noticed f.world.db id

theorem Told.shown_noticed (htold : Told ids f) : Shown (Noticed f.world.db) f where
  content vc hvc notification hheld := (htold.content vc hvc notification hheld).noticed
  inboxes inbox hinbox notification hrow := (htold.inboxes inbox hinbox notification hrow).noticed
  noticed _ h := h

theorem Told.noticed_step (htold : Told ids f) (h : Step ids f a f') {id : String}
    (hid : Noticed f.world.db id) : Noticed f'.world.db id := by
  obtain ⟨notification, hread, -⟩ := htold.complete id hid
  obtain ⟨after, hafter, -⟩ := htold.read_later h hread
  exact .of_read hafter

theorem shown_step (hshown : Shown known f) (htold : Told ids f) (h : Step ids f a f')
    (hquiet : takesUp a = false) : Shown known f' := by
  have hscreens := h.shown (P := fun _ notification => known notification.notificationID)
    hshown.content hshown.inboxes fun htakes => absurd htakes (by simp [hquiet])
  exact ⟨hscreens.1, hscreens.2, fun id hid => htold.noticed_step h (hshown.noticed id hid)⟩

theorem Told.told_new (htold : Told ids f) (h : Step ids f a f') {notification : GNotification}
    (hmem : told notification ∈ f.issued ids a) :
    ¬Noticed f.world.db notification.notificationID ∧
      Noticed f'.world.db notification.notificationID := by
  have hposted : notification.notificationID ∈ notificationLedger.posted (f.issued ids a) :=
    List.mem_filterMap.mpr ⟨told notification, hmem, rfl⟩
  refine ⟨htold.not_noticed h hposted, ?_⟩
  obtain ⟨_, -, -, after, hafter, -⟩ := htold.posted h hposted
  exact .of_read hafter

theorem parts_of_handled {actions : List Action} (hshown : Shown known f) (htold : Told ids f)
    (hrun : exec (step ids) f actions = some f') (hquiet : ∀ a ∈ actions, takesUp a = false) :
    ∀ handler ∈ handled ids f actions, ∀ write ∈ handler.writes,
      Part known handler.subject write ∧ ∀ notification, write = told notification →
        ¬Noticed f.world.db notification.notificationID := by
  induction actions generalizing f with
  | nil => exact fun handler hhandler => absurd hhandler List.not_mem_nil
  | cons a rest ih =>
    obtain ⟨f₁, hstep, hrest⟩ := Option.bind_eq_some_iff.mp hrun
    have h := Step.of_step ids hstep
    rw [handled_cons hstep, List.forall_mem_cons]
    constructor
    · intro write hwrite
      refine ⟨h.parts (fun vc hvc notification hheld _ => hshown.content vc hvc notification hheld)
        (fun inbox hinbox notification hrow _ => hshown.inboxes inbox hinbox notification hrow)
        write hwrite, ?_⟩
      rintro notification rfl
      exact (htold.told_new h hwrite).1
    · intro handler hhandler write hwrite
      obtain ⟨hpart, hnew⟩ := ih (shown_step hshown htold h (hquiet a List.mem_cons_self)) (htold.step h)
        hrest (fun a ha => hquiet a (List.mem_cons_of_mem _ ha)) handler hhandler write hwrite
      exact ⟨hpart, fun notification heq hid => hnew notification heq (htold.noticed_step h hid)⟩

theorem pairwise_handled {actions : List Action} (hshown : Shown known f) (htold : Told ids f)
    (hrun : exec (step ids) f actions = some f') (hquiet : ∀ a ∈ actions, takesUp a = false)
    (hsubjects : ((handled ids f actions).filterMap (·.subject)).Nodup) :
    ((handled ids f actions).map (·.writes)).Pairwise fun first second =>
      ∀ write ∈ first, ∀ other ∈ second, write.Agrees other := by
  induction actions generalizing f with
  | nil => exact List.Pairwise.nil
  | cons a rest ih =>
    have hall := parts_of_handled hshown htold hrun hquiet
    obtain ⟨f₁, hstep, hrest⟩ := Option.bind_eq_some_iff.mp hrun
    have h := Step.of_step ids hstep
    have hquiet' : ∀ a ∈ rest, takesUp a = false := fun a ha =>
      hquiet a (List.mem_cons_of_mem _ ha)
    have hshown' := shown_step hshown htold h (hquiet a List.mem_cons_self)
    have hlater := parts_of_handled hshown' (htold.step h) hrest hquiet'
    rw [handled_cons hstep] at hsubjects hall ⊢
    rw [List.map_cons, List.pairwise_cons]
    constructor
    · intro second hsecond write hwrite other hother
      obtain ⟨handler, hhandler, rfl⟩ := List.mem_map.mp hsecond
      obtain ⟨hpart, hnew⟩ := hall _ List.mem_cons_self write hwrite
      obtain ⟨hpart', hnew'⟩ := hlater handler hhandler other hother
      refine agrees_of_parts hpart hpart' ?_ ?_ ?_ ?_
      · intro one hone hsame
        rw [List.filterMap_cons_some hone, List.nodup_cons] at hsubjects
        exact hsubjects.1 (List.mem_filterMap.mpr ⟨handler, hhandler, hsame⟩)
      · exact fun notification heq hid => hnew notification heq (hshown.noticed _ hid)
      · exact fun notification heq hid => hnew' notification heq (hshown'.noticed _ hid)
      · rintro notification notification' rfl heq hsame
        exact hnew' notification' heq (hsame ▸ (htold.told_new h hwrite).2)
    · apply ih hshown' (htold.step h) hrest hquiet'
      exact hsubjects.sublist ((List.sublist_cons_self _ _).filterMap _)

/-- Handlers about different events, comments and users may run at the same time, as long as
no notification is taken up in between: their writes may reach the database mixed in any
way, and nobody can tell the result from that of one handler after the other. -/
theorem handlers_at_the_same_time (ids : AutoId) (f f' : Feed) (actions : List Action)
    (writes : List Write) (h : Reachable (step ids) Feed.empty f)
    (hrun : exec (step ids) f actions = some f') (hquiet : ∀ a ∈ actions, takesUp a = false)
    (hsubjects : ((handled ids f actions).filterMap (·.subject)).Nodup)
    (hmixed : Mixed ((handled ids f actions).map (·.writes)) writes) :
    f'.world.db.Alike (f.world.db.applyAll writes) := by
  have htold := told_reachable h
  rw [db_of_handled hrun]
  exact alike_mixed _ hmixed (pairwise_handled htold.shown_noticed htold hrun hquiet hsubjects)

/-- Bob joins while Carol saves her profile. -/
theorem handlers_at_the_same_time_joining : ∃ f f₁ f',
    exec (step .unary) Feed.empty prompted = some f ∧
      step .unary f (.base (.saveUser World.carol)) = some f₁ ∧
      step .unary f₁ (.base (.agree 0)) = some f' ∧
      f'.world.db.Alike (f.world.db.applyAll (f₁.issued .unary (.base (.agree 0)) ++
        f.issued .unary (.base (.saveUser World.carol)))) := by
  have hrun : ((exec (step .unary) Feed.empty prompted).any fun f =>
      (step .unary f (.base (.saveUser World.carol))).any fun f₁ =>
        (step .unary f₁ (.base (.agree 0))).isSome &&
          ((handled .unary f [.base (.saveUser World.carol), .base (.agree 0)]).filterMap
            (·.subject)).Nodup) = true := by decide
  obtain ⟨f, hf, hrest⟩ := (Option.any_eq_true _ _).mp hrun
  obtain ⟨f₁, hf₁, hrest⟩ := (Option.any_eq_true _ _).mp hrest
  rw [Bool.and_eq_true] at hrest
  obtain ⟨f', hf'⟩ := Option.isSome_iff_exists.mp hrest.1
  refine ⟨f, f₁, f', hf, hf₁, hf', ?_⟩
  apply handlers_at_the_same_time .unary f f' [.base (.saveUser World.carol), .base (.agree 0)]
  · exact ⟨prompted, hf⟩
  · simp [exec, hf₁, hf']
  · simp [takesUp]
  · exact of_decide_eq_true hrest.2
  · rw [handled_cons hf₁, handled_cons hf']
    exact .cons (.cons .nil (.only_left _)) (.swapped _ _)

end Feed

end GetTogether
