import GetTogether.World.Recipients

/-! The whole of a submission. The image passes through a thumbnail, an encoder, the
upload and the lookup of its address before anything is written, and each of these steps
may fail; the completion asks who is signed in, and its loops unwrap the organiser's
record, which a separate read may not have delivered. -/
namespace GetTogether

open Realtime Roster

/-- The steps between the image and its address, as the platform and the storage
service answer them. -/
structure ImageSteps (Image Data : Type) where
  thumbnail : Image → Option Image
  jpegRepresentation : Image → Option Data
  putDataFails : Data → Bool
  downloadURL : Option String

/-- The address `uploadImage` calls its completion with, when it calls it. -/
def ImageSteps.uploadImage {Image Data : Type} (steps : ImageSteps Image Data) (image : Image) :
    Option String :=
  match steps.jpegRepresentation image with
  | none => none
  | some data => if steps.putDataFails data then none else steps.downloadURL

/-- The address the completion of the submission runs with; `none` when a step before
it failed. -/
def ImageSteps.url {Image Data : Type} (steps : ImageSteps Image Data) (image : Option Image) :
    Option String :=
  match image with
  | none => none
  | some image =>
    match steps.thumbnail image with
    | none => none
    | some thumbnailImage => steps.uploadImage thumbnailImage

namespace AddEventVC

/-- `uploadEventData` from its start; `vc` is the screen as the completion finds it. -/
def uploadEvent {Image Data : Type} (vc : AddEventVC) (steps : ImageSteps Image Data)
    (image : Option Image) (runtime : Runtime) (signedIn : Option String) (autoID : String)
    (newID : Nat → String) (time : String) : Outcome :=
  match steps.url image with
  | none => .issue []
  | some url => vc.uploadEventData runtime signedIn autoID newID time url

/-- Everything the submission has to write: the invitations, the removals and the event. -/
def WritesAll (vc : AddEventVC) (runtime : Runtime) (autoID : String) (outcome : Outcome) : Prop :=
  ∃ stored, Submits (vc.submittedID autoID) (· ∈ editedIDs vc runtime)
    (· ∈ removedIDs vc runtime) stored outcome

section Lists

variable (vc : AddEventVC) (runtime : Runtime)

theorem removedIDs_eq_nil_iff : removedIDs vc runtime = [] ↔
    (vc.isEdit = true → ∀ member ∈ vc.deletedMembers,
      runtime.hash member ∈ vc.members.map runtime.hash) := by
  unfold removedIDs
  split
  · next hedit =>
    have hkeys := KeyedSet.keys_ofArray runtime.hash vc.deletedMembers
    rw [List.map_eq_nil_iff, List.eq_nil_iff_forall_not_mem]
    simp only [removedMembers, KeyedSet.Enumeration.mem_toArray, KeyedSet.mem_subtracting,
      KeyedSet.keys_ofArray, not_and, not_not, hedit, true_imp_iff]
    constructor
    · intro h member hmember
      obtain ⟨first, hfirst, hhash⟩ :=
        List.mem_map.mp ((hkeys _).mpr (List.mem_map_of_mem hmember))
      exact hhash ▸ h first hfirst
    · intro h member hmember
      exact h member (KeyedSet.mem_of_mem_ofArray _ hmember)
  · next hedit => simp [hedit]

theorem editedIDs_eq_nil_iff : editedIDs vc runtime = [] ↔
    ∀ member ∈ vc.members, runtime.hash member ∈ vc.deletedMembers.map runtime.hash ∨
      runtime.hash member ∈ vc.originalMemers.map runtime.hash := by
  have hkeys := KeyedSet.keys_ofArray runtime.hash vc.members
  rw [editedIDs, List.map_eq_nil_iff, List.eq_nil_iff_forall_not_mem]
  simp only [editedMembers, KeyedSet.Enumeration.mem_toArray, KeyedSet.mem_subtracting,
    KeyedSet.keys_ofArray, not_and, not_not, and_imp]
  constructor
  · intro h member hmember
    obtain ⟨first, hfirst, hhash⟩ :=
      List.mem_map.mp ((hkeys _).mpr (List.mem_map_of_mem hmember))
    rw [← hhash, or_iff_not_imp_left]
    exact h first hfirst
  · intro h member hmember
    exact or_iff_not_imp_left.mp (h member (KeyedSet.mem_of_mem_ofArray _ hmember))

end Lists

theorem writes_ne_nil_of_signedIn (vc : AddEventVC) (runtime : Runtime) (uid autoID : String)
    (newID : Nat → String) (time url : String) :
    (vc.uploadEventData runtime (some uid) autoID newID time url).writes ≠ [] := by
  by_cases hcompletes : World.Completes vc runtime
  · rw [uploadEventData_of_completes vc runtime newID time uid autoID url hcompletes]
    simp [submissionWrites]
  · obtain ⟨write, rest, h⟩ := stopped_of_not_completes vc runtime newID time autoID hcompletes
    rw [h uid url]
    exact List.cons_ne_nil write rest

/-- A submission is all or nothing exactly when a step before the writes fails, nobody is
signed in, the organiser's record is there, or nobody is to be removed or invited. -/
theorem all_or_nothing_iff {Image Data : Type} (vc : AddEventVC) (steps : ImageSteps Image Data)
    (image : Option Image) (runtime : Runtime) (signedIn : Option String) (autoID : String)
    (newID : Nat → String) (time : String) :
    ((vc.uploadEvent steps image runtime signedIn autoID newID time).writes = [] ∨
      vc.WritesAll runtime autoID
        (vc.uploadEvent steps image runtime signedIn autoID newID time)) ↔
    steps.url image = none ∨ signedIn = none ∨ vc.user.isSome ∨
      (vc.isEdit = true → ∀ member ∈ vc.deletedMembers,
        runtime.hash member ∈ vc.members.map runtime.hash) ∧
      ∀ member ∈ vc.members, runtime.hash member ∈ vc.deletedMembers.map runtime.hash ∨
        runtime.hash member ∈ vc.originalMemers.map runtime.hash := by
  rw [← removedIDs_eq_nil_iff, ← editedIDs_eq_nil_iff]
  unfold uploadEvent
  cases steps.url image with
  | none => simp
  | some url =>
    cases signedIn with
    | none => simp [uploadEventData]
    | some uid =>
      have hsome := writes_ne_nil_of_signedIn vc runtime uid autoID newID time url
      simp only [hsome, false_or, reduceCtorEq]
      constructor
      · rintro ⟨stored, h⟩
        by_contra hcompletes
        obtain ⟨write, rest, hstopped⟩ :=
          stopped_of_not_completes vc runtime newID time autoID hcompletes
        have htrapped := h.trapped
        rw [hstopped uid url] at htrapped
        cases htrapped
      · intro hcompletes
        exact ⟨_, submits_uploadEventData vc runtime newID time uid autoID url hcompletes⟩

/-- Bob is chosen, and done is pressed before Alice's own record has arrived. -/
def pressedEarly : AddEventVC :=
  { newEvent "alice" "2018-12-01 12:00" with members := [World.bob], form := World.party }

def early : Outcome :=
  pressedEarly.uploadEvent (ImageSteps.mk some some (fun _ => false) (some "k.jpg")) (some ())
    .inOrder (some "alice") "k" AutoId.unary.key "2018-12-01 12:00:00"

/-- Bob is listed as invited to an event that is never stored. -/
theorem invited_without_event : ¬(early.writes = [] ∨ pressedEarly.WritesAll .inOrder "k" early) := by
  rintro (h | ⟨stored, h⟩)
  · exact absurd h (by decide)
  · exact absurd h.trapped (by decide)

end AddEventVC

end GetTogether
