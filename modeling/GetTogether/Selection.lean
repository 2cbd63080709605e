import GetTogether.World.Recipients

/-! Choosing members on the screen that creates or edits an event: users are added
from the search and cells are deleted, in any order and any number of times. -/
namespace GetTogether

open Realtime Roster

inductive Selection where
  | didUpdateMember (updatedMember : GUser)
  | deleteData (item : Nat)
  deriving DecidableEq, Repr

namespace AddEventVC

def select (vc : AddEventVC) : Selection → Option AddEventVC
  | .didUpdateMember updatedMember => some (vc.didUpdateMember updatedMember)
  | .deleteData item => vc.deleteData item

/-- What one selection does: nothing, a new first member, or one member less. -/
theorem select_cases {vc vc' : AddEventVC} {selection : Selection}
    (h : vc.select selection = some vc') :
    vc' = vc ∨
    (∃ user, user.userID ≠ vc.currentUser ∧ user.userID ∉ vc.members.map (·.userID) ∧
      vc' = { vc with members := user :: vc.members }) ∨
    (∃ item removed, vc.members[item]? = some removed ∧
      vc' = { vc with
        members := vc.members.eraseIdx item
        deletedMembers :=
          if vc.isEdit then vc.deletedMembers ++ [removed] else vc.deletedMembers }) := by
  cases selection with
  | didUpdateMember user =>
    obtain rfl := Option.some.inj h
    rcases didUpdateMember_eq vc user with hsame | hadded
    · exact .inl hsame
    · exact .inr (.inl ⟨user, hadded⟩)
  | deleteData item =>
    obtain ⟨removed, hremoved⟩ := deleteData_eq_some h
    exact .inr (.inr ⟨item, removed, hremoved⟩)

theorem select_frame {start vc : AddEventVC} {selections : List Selection}
    (h : exec select start selections = some vc) :
    vc = { start with members := vc.members, deletedMembers := vc.deletedMembers } := by
  have hstep : ∀ s selection s',
      s = { start with members := s.members, deletedMembers := s.deletedMembers } →
      select s selection = some s' →
      s' = { start with members := s'.members, deletedMembers := s'.deletedMembers } := by
    intro s selection s' hs hstep
    rcases select_cases hstep with rfl | ⟨user, -, -, rfl⟩ | ⟨item, removed, -, rfl⟩
    · exact hs
    · rw [hs]
    · rw [hs]
  exact exec_invariant hstep rfl selections h

end AddEventVC

/-! A set made from a list keeps the first user with each hash. -/

section Hash

variable (runtime : Runtime) (users : List GUser) (uid : String)

/-- The first user with the hash of the id is the user with that id. -/
def Represents : Prop :=
  (users.find? (runtime.hash · = runtime.hashValue uid)).map (·.userID) = some uid

def Hashes : Prop := runtime.hashValue uid ∈ users.map runtime.hash

instance : Decidable (Hashes runtime users uid) := inferInstanceAs (Decidable (_ ∈ _))

theorem represents_iff : Represents runtime users uid ↔
    ∃ user ∈ KeyedSet.ofArray runtime.hash users, user.userID = uid := by
  simp only [Represents, KeyedSet.mem_ofArray_iff, Option.map_eq_some_iff]
  constructor
  · rintro ⟨user, hfind, rfl⟩
    exact ⟨user, hfind, rfl⟩
  · rintro ⟨user, hfind, rfl⟩
    exact ⟨user, hfind, rfl⟩

end Hash

theorem Represents.mem {runtime : Runtime} {users : List GUser} {uid : String}
    (h : Represents runtime users uid) : uid ∈ users.map (·.userID) := by
  obtain ⟨user, hfind, rfl⟩ := Option.map_eq_some_iff.mp h
  exact List.mem_map_of_mem (List.mem_of_find?_eq_some hfind)

theorem Hashes.of_mem (runtime : Runtime) {users : List GUser} {uid : String}
    (h : uid ∈ users.map (·.userID)) : Hashes runtime users uid := by
  obtain ⟨user, huser, rfl⟩ := List.mem_map.mp h
  exact List.mem_map_of_mem (f := runtime.hash) huser

/-- Where no two ids hash alike, every user of the list represents their id. -/
theorem Represents.of_mem {runtime : Runtime} {users : List GUser} {uid : String}
    (hdistinct : ∀ user ∈ users, ∀ other ∈ users,
      runtime.hash user = runtime.hash other → user.userID = other.userID)
    (huid : uid ∈ users.map (·.userID)) : Represents runtime users uid := by
  obtain ⟨user, huser, rfl⟩ := List.mem_map.mp huid
  unfold Represents
  cases hfind : users.find? (runtime.hash · = runtime.hashValue user.userID) with
  | none =>
    have hnone := List.find?_eq_none.mp hfind user huser
    exact absurd (decide_eq_true rfl) hnone
  | some first =>
    have hhash : runtime.hash first = runtime.hash user :=
      of_decide_eq_true (List.find?_some hfind :)
    have hsame := hdistinct first (List.mem_of_find?_eq_some hfind) user huser hhash
    rw [Option.map_some, hsame]

section Lists

variable (vc : AddEventVC) (runtime : Runtime) (uid : String)

theorem mem_editedIDs_iff_represents : uid ∈ editedIDs vc runtime ↔
    Represents runtime vc.members uid ∧ ¬Hashes runtime vc.deletedMembers uid ∧
      ¬Hashes runtime vc.originalMemers uid := by
  rw [mem_editedIDs_iff, represents_iff]
  constructor
  · rintro ⟨member, hmember, hdeleted, horiginal, rfl⟩
    exact ⟨⟨member, hmember, rfl⟩, hdeleted, horiginal⟩
  · rintro ⟨⟨member, hmember, rfl⟩, hdeleted, horiginal⟩
    exact ⟨member, hmember, hdeleted, horiginal, rfl⟩

theorem mem_removedIDs_iff_represents {event : Event} (hevent : vc.event = some event) :
    uid ∈ removedIDs vc runtime ↔
      Represents runtime vc.deletedMembers uid ∧ ¬Hashes runtime vc.members uid := by
  rw [mem_removedIDs_iff vc runtime hevent, represents_iff]
  constructor
  · rintro ⟨member, hmember, hlisted, rfl⟩
    exact ⟨⟨member, hmember, rfl⟩, hlisted⟩
  · rintro ⟨⟨member, hmember, rfl⟩, hlisted⟩
    exact ⟨member, hmember, hlisted, rfl⟩

end Lists

end GetTogether
