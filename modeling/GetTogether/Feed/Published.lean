import GetTogether.Feed.Progress
import GetTogether.World.Recipients

/-! What everybody reads of an event is what its organiser submitted last. Answers, drop
outs and submissions that are cut short change none of its details. -/
namespace GetTogether

open Realtime Roster

namespace AddEventVC

variable (vc : AddEventVC) (runtime : Runtime) (newID : Nat → String) (time uid autoID url : String)

theorem removals_apart : ∀ write ∈ (vc.removals runtime newID time).writes,
    write.Apart "event" := by
  unfold removals
  cases vc.event with
  | none => simp
  | some event =>
    exact Outcome.forEach_forall (fun round member =>
      removal_apart vc newID time round member (.inr rfl) event) _ _

theorem invitations_apart (eventID : String) :
    ∀ write ∈ (vc.invitations runtime eventID newID time).writes, write.Apart "event" :=
  Outcome.forEach_forall (fun round member =>
    invitation_apart vc newID time round member (.inr rfl) eventID) _ _

theorem apart_of_not_completes (h : ¬World.Completes vc runtime) :
    ∀ write ∈ (vc.uploadEventData runtime (some uid) autoID newID time url).writes,
      write.Apart "event" := by
  have htrapped : (vc.uploadEventData runtime (some uid) autoID newID time url).trapped = true := by
    obtain ⟨write, rest, hstopped⟩ := stopped_of_not_completes vc runtime newID time autoID h
    rw [hstopped]
  have hremovals := vc.removals_apart runtime newID time
  have hinvitations := vc.invitations_apart runtime newID time (vc.submittedID autoID)
  unfold uploadEventData at htrapped ⊢
  cases hfirst : (vc.removals runtime newID time).trapped with
  | true => simpa [Outcome.andThen, hfirst] using hremovals
  | false =>
    cases hsecond : (vc.invitations runtime (vc.submittedID autoID) newID time).trapped with
    | true =>
      simp only [Outcome.andThen, hfirst, hsecond, if_true, Bool.false_eq_true, if_false,
        List.forall_mem_append]
      exact ⟨hremovals, hinvitations⟩
    | false => simp [Outcome.andThen, hfirst, hsecond] at htrapped

theorem writtenAt_of_completes (h : World.Completes vc runtime) (e field : String) :
    writtenAt ["event", e, field]
        (vc.uploadEventData runtime (some uid) autoID newID time url).writes =
      if e = vc.submittedID autoID then some ((vc.storedEvent runtime uid (vc.submittedID autoID)
        url).uploadedEventData.get [field])
      else none := by
  have hbefore : writtenAt ["event", e, field] ((vc.removals runtime newID time).writes ++
      (vc.invitations runtime (vc.submittedID autoID) newID time).writes) = none := by
    rw [writtenAt_eq_none_iff, List.forall_mem_append]
    exact ⟨fun write hwrite => vc.removals_apart runtime newID time write hwrite _,
      fun write hwrite => vc.invitations_apart runtime newID time _ write hwrite _⟩
  rw [uploadEventData_of_completes vc runtime newID time uid autoID url h, Outcome.issue_writes,
    submissionWrites, writtenAt_append, hbefore]
  simp [eq_comm]

end AddEventVC

theorem World.Step.get_detail {ids : AutoId} {w w' : World} {a : Action}
    (h : World.Step ids w a w') (ha : ∀ screen runtime time url, a ≠ .uploaded screen runtime time url)
    (e field : String) (hfield : field ≠ "memberIDs") :
    w'.db.get ["event", e, field] = w.db.get ["event", e, field] := by
  rw [h.db_eq]
  apply get_applyAll_of_untouched
  cases h with
  | agree hvc hprompt => simp [World.issued, hvc, hprompt, EventContentVC.agree, hfield.symm]
  | reject hvc hprompt hnotification =>
    simp [World.issued, hvc, hprompt, EventContentVC.reject, hnotification]
  | dropOut hvc _ _ => simp [World.issued, hvc, EventContentVC.dropOut, hfield.symm]
  | saveUser _ => simp [World.issued]
  | uploaded _ _ => exact absurd rfl (ha _ _ _ _)
  | _ => rfl

namespace Feed

variable {ids : AutoId} {f f' : Feed} {a : Action}

def publish (submitted : String → Option Event) (f : Feed) : Action → String → Option Event
  | .base (.uploaded screen runtime _ url) => match f.world.addVCs[screen]? with
    | some vc => match vc.phase with
      | .uploading autoID =>
        if World.Completes vc runtime then
          Function.update submitted (vc.submittedID autoID)
            (some (vc.storedEvent runtime vc.currentUser (vc.submittedID autoID) url))
        else submitted
      | _ => submitted
    | none => submitted
  | _ => submitted

def Published (submitted : String → Option Event) (db : Store) : Prop :=
  ∀ eventID field, field ≠ "memberIDs" → db.get ["event", eventID, field] =
    (submitted eventID).bind fun event => event.uploadedEventData.get [field]

theorem Published.step {submitted : String → Option Event} (h : Published submitted f.world.db)
    (hstep : Step ids f a f') : Published (publish submitted f a) f'.world.db := by
  intro eventID field hfield
  by_cases hbase : ∃ action, a = .base action
  · obtain ⟨action, rfl⟩ := hbase
    cases hstep with
    | @base _ world hstep =>
      by_cases hupload : ∃ screen runtime time url, action = .uploaded screen runtime time url
      · obtain ⟨screen, runtime, time, url, rfl⟩ := hupload
        have hdb := hstep.db_eq
        cases hstep with
        | @uploaded _ _ _ _ autoID vc hvc hphase =>
          rw [hdb, get_applyAll]
          simp only [World.issued, publish, hvc, hphase]
          by_cases hcompletes : World.Completes vc runtime
          · rw [AddEventVC.writtenAt_of_completes _ _ _ _ _ _ _ hcompletes, if_pos hcompletes,
              Function.update_apply]
            by_cases hsame : eventID = vc.submittedID autoID
            · rw [if_pos hsame, if_pos hsame]
              rfl
            · rw [if_neg hsame, if_neg hsame]
              exact h eventID field hfield
          · have hapart := vc.apart_of_not_completes runtime (fun n => ids.key (f.world.drawn + n))
              time vc.currentUser autoID url hcompletes
            rw [writtenAt_eq_none_iff.mpr fun write hwrite => hapart write hwrite _,
              if_neg hcompletes]
            exact h eventID field hfield
      · have ha : ∀ screen runtime time url, action ≠ .uploaded screen runtime time url :=
          fun screen runtime time url ha => hupload ⟨screen, runtime, time, url, ha⟩
        have hsubmitted : publish submitted f (.base action) = submitted := by
          cases action with
          | uploaded _ _ _ _ => exact absurd rfl (ha _ _ _ _)
          | _ => rfl
        rw [hsubmitted, hstep.get_detail ha eventID field hfield]
        exact h eventID field hfield
  · have hbase : ∀ action, a ≠ .base action := fun action ha => hbase ⟨action, ha⟩
    have hsubmitted : publish submitted f a = submitted := by
      cases a with
      | base action => exact absurd rfl (hbase action)
      | _ => rfl
    obtain ⟨count, heq⟩ := hstep.world_eq hbase
    rw [hsubmitted, heq, (same_of_aside (hstep.issued_aside hbase) count).of_bare.get "event"
      (by simp)]
    exact h eventID field hfield

theorem published_reachable {s : (String → Option Event) × Feed}
    (h : Reachable (logged (step ids) publish) (fun _ => none, Feed.empty) s) :
    Reachable (step ids) Feed.empty s.2 ∧ Published s.1 s.2.world.db := by
  refine h.invariant (fun s => Reachable (step ids) Feed.empty s.2 ∧ Published s.1 s.2.world.db)
    ⟨.refl _, fun _ _ _ => rfl⟩ ?_
  intro s a s' hs hstep
  obtain ⟨f', hf', rfl⟩ := logged_cases hstep
  exact ⟨hs.1.tail hf', hs.2.step (Step.of_step ids hf')⟩

/-- In every run the record of an event is what was submitted for it last, with the members
that are stored now; without a submission there is none. -/
theorem events_are_as_submitted (ids : AutoId) (submitted : String → Option Event) (f : Feed)
    (h : Reachable (logged (step ids) publish) (fun _ => none, Feed.empty) (submitted, f))
    (eventID : String) :
    Event.read f.world.db ["event", eventID] = (submitted eventID).map fun event =>
      { event with memberIDs := (tables f.world.db).memberIDs eventID } := by
  obtain ⟨hreach, hpublished⟩ := published_reachable h
  have hleaf : ∀ field, field ≠ "memberIDs" → f.world.db.get ["event", eventID, field] =
      (submitted eventID).bind fun event => event.uploadedEventData.get [field] := by
    exact fun field hfield => hpublished eventID field hfield
  cases hevent : submitted eventID with
  | none =>
    rw [hevent] at hleaf
    cases hread : Event.read f.world.db ["event", eventID] with
    | none => rfl
    | some event =>
      have hnone := hleaf "eventID" (by decide)
      exact absurd (hnone.symm.trans (Event.read_eq_some.mp hread).1) (by simp)
  | some event =>
    rw [hevent] at hleaf
    obtain ⟨hgov, hknown⟩ := known_reachable hreach
    have hby : OrganisedBy f.world.db eventID event.organiserID := by
      rw [OrganisedBy, hleaf "organiserID" (by decide)]
      simp [Event.uploadedEventData]
    obtain ⟨stored, hread, -, -, hmembers⟩ := hknown.read_event hgov (node_of_organiser hby)
    rw [hread, hmembers, Option.map_some, Option.some.injEq]
    obtain ⟨h1, h2, h3, -, h5, h6, h7, h8⟩ := Event.read_eq_some.mp hread
    simp only [List.cons_append, List.nil_append] at h1 h2 h3 h5 h6 h7 h8
    rw [hleaf _ (by decide)] at h1 h2 h3 h5 h6 h7 h8
    simp [Event.uploadedEventData] at h1 h2 h3 h5 h6 h7 h8
    cases stored
    simp_all

/-- Alice creates an event, Bob joins. -/
theorem events_are_as_submitted_joined : ∃ submitted f event,
    exec (logged (step .unary) publish) (fun _ => none, Feed.empty) joined = some (submitted, f) ∧
      Event.read f.world.db ["event", "k"] = some event ∧ event.title = "Party" := by
  have hrun : ((exec (logged (step .unary) publish) (fun _ => none, Feed.empty) joined).any
      fun s => (s.1 "k").any fun event => event.title = "Party") = true := by decide
  obtain ⟨s, hs, hrest⟩ := (Option.any_eq_true _ _).mp hrun
  obtain ⟨event, hevent, htitle⟩ := (Option.any_eq_true _ _).mp hrest
  have hread := events_are_as_submitted .unary s.1 s.2 ⟨joined, hs⟩ "k"
  rw [hevent, Option.map_some] at hread
  exact ⟨s.1, s.2, _, hs, hread, of_decide_eq_true htitle⟩

end Feed

end GetTogether
