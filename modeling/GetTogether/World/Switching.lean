import GetTogether.World.Organisers
import GetTogether.World.Recipients

/-! Accounts switched while an upload is under way. Pressing done closes the edit screen
at once, and the completion of the upload asks only then who is signed in; the sibling
screens that upload a profile ask before they start. -/
namespace GetTogether

open Realtime Roster

structure Switching where
  world : World
  signedIn : Nat → Option String
  /-- The device on which done was pressed, for each edit screen. -/
  pressedOn : Nat → Nat

namespace Switching

inductive Action where
  | act (action : GetTogether.Action)
  | done (device screen : Nat)
  | uploaded (screen : Nat) (runtime : Runtime) (time url : String)
  | signIn (device : Nat) (uid : String)
  | signOut (device : Nat)

def start : Switching := ⟨.empty, fun _ => none, fun _ => 0⟩

/-- Pressing done and the completion of an upload have actions of their own. -/
def onScreens : GetTogether.Action → Bool
  | .done _ => false
  | .uploaded _ _ _ _ => false
  | _ => true

variable (ids : AutoId)

/-- The writes of a completion, for the account that is signed in when it runs. -/
def completion (s : Switching) (screen : Nat) (vc : AddEventVC) (runtime : Runtime)
    (autoID time url : String) : Outcome :=
  vc.uploadEventData runtime (s.signedIn (s.pressedOn screen)) autoID
    (fun n => ids.key (s.world.drawn + n)) time url

def step (s : Switching) : Action → Option Switching
  | .act action =>
    if onScreens action then
      (World.step ids s.world action).map fun world => { s with world }
    else none
  | .done device screen => do
    let vc ← s.world.editing screen
    if s.signedIn device = some vc.currentUser then
      let world ← World.step ids s.world (.done screen)
      return { s with world, pressedOn := Function.update s.pressedOn screen device }
    else none
  | .uploaded screen runtime time url => do
    let vc ← s.world.addVCs[screen]?
    match vc.phase with
    | .uploading autoID =>
      let outcome := completion ids s screen vc runtime autoID time url
      return { s with
        world := ((s.world.write outcome.writes).setAdd screen { vc with phase := .finished }).draw
          ((vc.removedMembers runtime).length + (vc.editedMembers runtime).length) }
    | _ => none
  | .signIn device uid =>
    if uid = "" then none
    else some { s with signedIn := Function.update s.signedIn device (some uid) }
  | .signOut device => some { s with signedIn := Function.update s.signedIn device none }

/-- An event record that a completion writes names the account that pressed done, or
for an edit the organiser the event had. -/
def WritesOwner (s : Switching) : Action → Prop
  | .uploaded screen runtime time url => ∀ vc autoID, s.world.addVCs[screen]? = some vc →
      vc.phase = .uploading autoID → ∀ eventID organiserID,
        writtenAt ["event", eventID, "organiserID"]
          (completion ids s screen vc runtime autoID time url).writes =
            some (some (.string organiserID)) →
        match vc.event with
        | none => organiserID = vc.currentUser
        | some event => OrganisedBy s.world.db event.eventID organiserID
  | _ => True

/-- When a completion gets to its last write, the account that pressed done is still
signed in, or nobody is. -/
def StillSignedIn (s : Switching) : Action → Prop
  | .uploaded screen runtime _ _ => ∀ vc autoID, s.world.addVCs[screen]? = some vc →
      vc.phase = .uploading autoID → World.Completes vc runtime →
        ∀ uid, s.signedIn (s.pressedOn screen) = some uid → uid = vc.currentUser
  | _ => True

end Switching

namespace AddEventVC

variable {vc : AddEventVC} {runtime : Runtime} {newID : Nat → String} {autoID time url : String}

theorem organiserID_of_completes (h : World.Completes vc runtime) (uid : String) :
    writtenAt ["event", vc.submittedID autoID, "organiserID"]
      (vc.uploadEventData runtime (some uid) autoID newID time url).writes =
        some (some (.string uid)) := by
  rw [uploadEventData_of_completes vc runtime newID time uid autoID url h, Outcome.issue_writes,
    submissionWrites, writtenAt_append]
  simp [storedEvent, Event.uploadedEventData]

/-- A completion that stops before its last write does not depend on the account. -/
theorem uploadEventData_of_not_completes (h : ¬World.Completes vc runtime) (uid uid' : String) :
    vc.uploadEventData runtime (some uid) autoID newID time url =
      vc.uploadEventData runtime (some uid') autoID newID time url := by
  obtain ⟨write, rest, hstopped⟩ := stopped_of_not_completes vc runtime newID time autoID h
  rw [hstopped uid url, hstopped uid' url]

end AddEventVC

namespace World

variable {ids : AutoId} {w : World}

theorem Lawful.finished (hlaw : Lawful ids w) {screen : Nat} {vc : AddEventVC}
    (hvc : w.addVCs[screen]? = some vc) (count : Nat) :
    Lawful ids ((w.setAdd screen { vc with phase := .finished }).draw count) := by
  obtain ⟨hw, hacc, henr, ⟨log, hchr⟩, horg⟩ := hlaw
  have hmem := List.mem_of_getElem? hvc
  have hadd : ∀ {P : AddEventVC → Prop}, (∀ vc ∈ w.addVCs, P vc) →
      P { vc with phase := .finished } →
      ∀ vc' ∈ w.addVCs.set screen { vc with phase := .finished }, P vc' := by
    intro P hold hnew vc' hvc'
    rcases List.mem_or_eq_of_mem_set hvc' with hin | rfl
    · exact hold vc' hin
    · exact hnew
  have hup : ∀ {i : Nat} {vc' : AddEventVC} {autoID : String},
      (w.addVCs.set screen { vc with phase := .finished })[i]? = some vc' →
      vc'.phase = .uploading autoID → w.addVCs[i]? = some vc' := by
    intro i vc' autoID hvc' hphase
    rw [List.getElem?_set] at hvc'
    split at hvc'
    · split at hvc'
      · cases hvc'
        cases hphase
      · cases hvc'
    · exact hvc'
  have hheld : ∀ {e m}, ((w.setAdd screen { vc with phase := .finished }).draw count).Held e m →
      w.Held e m := by
    rintro e m (hcontent | ⟨vc', hvc', event, hevent, hid, hm⟩)
    · exact .inl hcontent
    · revert event
      refine hadd (P := fun vc' => ∀ event, vc'.event = some event → event.eventID = e →
        event.memberIDs = m → w.Held e m) ?_ ?_ vc' hvc'
      · rintro other hother event hevent rfl rfl
        exact .add hother hevent
      · rintro event hevent rfl rfl
        exact .add hmem hevent
  have hdrawn : w.drawn ≤ w.drawn + count := Nat.le_add_right _ _
  refine ⟨hw, ?_, ?_, ⟨log, ?_⟩, ?_⟩
  · exact ⟨hacc.stored, hacc.content, hadd hacc.add (hacc.add vc hmem)⟩
  · exact ⟨henr.prompts, fun e m h => henr.held e m (hheld h), henr.stored⟩
  · have hunused : ∀ {e}, Unused log w e →
        Unused log ((w.setAdd screen { vc with phase := .finished }).draw count) e := fun h =>
      ⟨h.log, h.stored, fun m hm => h.held m (hheld hm)⟩
    refine ⟨hchr.noone, hchr.stored, fun e m h => hchr.held e m (hheld h), ?_, ?_, ?_⟩
    · exact fun n hn => hunused (hchr.undrawn n (hdrawn.trans hn))
    · intro i vc' autoID hvc' hphase
      obtain ⟨⟨n, hn, hkey⟩, hnew⟩ := hchr.uploading i vc' autoID (hup hvc' hphase) hphase
      exact ⟨⟨n, hn.trans_le hdrawn, hkey⟩, fun hnone => hunused (hnew hnone)⟩
    · exact fun i j _ _ _ hi hj hphase hphase' =>
        hchr.distinct i j _ _ _ (hup hi hphase) (hup hj hphase') hphase hphase'
  · exact ⟨horg.aside, horg.content, hadd horg.add (horg.add vc hmem),
      fun n hn => horg.undrawn n (hdrawn.trans hn),
      fun i vc' autoID hvc' hphase => horg.uploading i vc' autoID (hup hvc' hphase) hphase⟩

end World

namespace Switching

variable {ids : AutoId} {s s' : Switching} {a : Action}

theorem writesOwner_iff (hlaw : World.Lawful ids s.world) :
    WritesOwner ids s a ↔ StillSignedIn s a := by
  cases a with
  | uploaded screen runtime time url =>
    constructor
    · intro hwrites vc autoID hvc hphase hcompletes uid hsigned
      have hwritten := hwrites vc autoID hvc hphase (vc.submittedID autoID) uid (by
        rw [completion, hsigned]
        exact AddEventVC.organiserID_of_completes hcompletes uid)
      cases hevent : vc.event with
      | none => simpa [hevent] using hwritten
      | some event =>
        simp only [hevent] at hwritten
        obtain ⟨hstored, hself⟩ :=
          (hlaw.organised.add vc (List.mem_of_getElem? hvc)).1 event hevent
        have heq : uid = event.organiserID := by simpa using hwritten.symm.trans hstored
        exact heq.trans hself.symm
    · intro hstill vc autoID hvc hphase eventID organiserID hwritten
      rw [completion] at hwritten
      cases hsigned : s.signedIn (s.pressedOn screen) with
      | none => simp [hsigned, AddEventVC.uploadEventData, Outcome.issue] at hwritten
      | some uid =>
        rw [hsigned] at hwritten
        obtain rfl : organiserID = uid := by
          simpa using (AddEventVC.organiserID_written hwritten).2
        have hcompletes : World.Completes vc runtime := by
          by_contra hstops
          -- A completion that stops would write the same for any two accounts.
          have hany : ∀ other, organiserID = other := by
            intro other
            rw [AddEventVC.uploadEventData_of_not_completes hstops organiserID other] at hwritten
            simpa using (AddEventVC.organiserID_written hwritten).2
          exact absurd ((hany "").symm.trans (hany "alice")) (by decide)
        have hself := hstill vc autoID hvc hphase hcompletes organiserID hsigned
        cases hevent : vc.event with
        | none => exact hself
        | some event =>
          obtain ⟨hstored, horganises⟩ :=
            (hlaw.organised.add vc (List.mem_of_getElem? hvc)).1 event hevent
          rw [hself, horganises]
          exact hstored
  | _ => exact Iff.rfl

/-- While the condition is met every completion is one the interleaved system knows, or
writes nothing. -/
theorem lawful_step (hlaw : World.Lawful ids s.world) (hstill : StillSignedIn s a)
    (h : step ids s a = some s') : World.Lawful ids s'.world := by
  cases a with
  | act action =>
    simp only [step, Option.ite_none_right_eq_some, Option.map_eq_some_iff] at h
    obtain ⟨-, world, hworld, rfl⟩ := h
    exact hlaw.step (World.Step.of_step ids hworld)
  | done device screen =>
    simp only [step, Option.bind_eq_bind, Option.bind_eq_some_iff, Option.ite_none_right_eq_some,
      Option.pure_def, Option.some.injEq] at h
    obtain ⟨vc, -, -, world, hworld, rfl⟩ := h
    exact hlaw.step (World.Step.of_step ids hworld)
  | uploaded screen runtime time url =>
    simp only [step, Option.bind_eq_bind, Option.bind_eq_some_iff] at h
    obtain ⟨vc, hvc, h⟩ := h
    split at h
    · next autoID hphase =>
      obtain rfl := Option.some.inj h
      rw [completion]
      cases hsigned : s.signedIn (s.pressedOn screen) with
      | none => exact hlaw.finished hvc _
      | some uid =>
        have hsame : vc.uploadEventData runtime (some uid) autoID
            (fun n => ids.key (s.world.drawn + n)) time url =
            vc.uploadEventData runtime (some vc.currentUser) autoID
              (fun n => ids.key (s.world.drawn + n)) time url := by
          by_cases hcompletes : World.Completes vc runtime
          · rw [hstill vc autoID hvc hphase hcompletes uid hsigned]
          · exact AddEventVC.uploadEventData_of_not_completes hcompletes uid vc.currentUser
        rw [hsame]
        exact hlaw.step (.uploaded hvc hphase)
    · cases h
  | signIn device uid =>
    simp only [step, Option.ite_none_left_eq_some, Option.some.injEq] at h
    obtain ⟨-, rfl⟩ := h
    exact hlaw
  | signOut device =>
    obtain rfl := Option.some.inj h
    exact hlaw

/-- In a run every event record that a completion writes belongs to its owner, exactly
when every completion that writes one runs for the account that pressed done. -/
theorem event_owner_iff (ids : AutoId) (actions : List Action) :
    EachStep (step ids) (WritesOwner ids) start actions ↔
      EachStep (step ids) StillSignedIn start actions :=
  eachStep_iff (fun s => World.Lawful ids s.world) (fun _ _ _ hlaw _ => writesOwner_iff hlaw)
    (fun _ _ _ hlaw hstill h => lawful_step hlaw hstill h) (World.Lawful.empty ids) actions

open World (alice bob party)

/-- Alice creates an event, and Bob signs in on her device before the upload completes. -/
def switched : List Action :=
  [.act (.saveUser alice), .act (.saveUser bob), .signIn 0 "alice",
    .act (.newEvent "alice" "2018-12-01 12:00"), .act (.queryOrganiserData 0),
    .act (.fillIn 0 party), .done 0 0, .signOut 0, .signIn 0 "bob"]

/-- The event is Bob's. -/
theorem event_of_other_account :
    ∃ s s', exec (step .unary) start switched = some s ∧
      step .unary s (.uploaded 0 .inOrder "2018-12-01" "party.jpg") = some s' ∧
      OrganisedBy s'.world.db "k" "bob" ∧
      ¬WritesOwner .unary s (.uploaded 0 .inOrder "2018-12-01" "party.jpg") := by
  have hrun : ((exec (step .unary) start switched).any fun s =>
      s.signedIn (s.pressedOn 0) = some "bob" ∧
      (s.world.addVCs[0]?).any (fun vc => vc.phase = .uploading "k" ∧ vc.event = none ∧
        vc.currentUser = "alice" ∧
        writtenAt ["event", "k", "organiserID"] (completion .unary s 0 vc .inOrder "k"
          "2018-12-01" "party.jpg").writes = some (some (.string "bob"))) ∧
      (step .unary s (.uploaded 0 .inOrder "2018-12-01" "party.jpg")).any fun s' =>
        s'.world.db.get ["event", "k", "organiserID"] = some (.string "bob")) = true := by decide
  obtain ⟨s, hs, h⟩ := (Option.any_eq_true _ _).mp hrun
  obtain ⟨-, hscreen, hafter⟩ := of_decide_eq_true h
  obtain ⟨vc, hvc, hfields⟩ := (Option.any_eq_true _ _).mp hscreen
  obtain ⟨hphase, hevent, huser, hwritten⟩ := of_decide_eq_true hfields
  obtain ⟨s', hs', hstored⟩ := (Option.any_eq_true _ _).mp hafter
  have hstored : s'.world.db.get ["event", "k", "organiserID"] = some (.string "bob") :=
    of_decide_eq_true hstored
  refine ⟨s, s', hs, hs', hstored, fun hwrites => ?_⟩
  have howner := hwrites vc "k" hvc hphase "k" "bob" hwritten
  simp only [hevent, huser] at howner
  exact absurd howner (by decide)

end Switching

end GetTogether
