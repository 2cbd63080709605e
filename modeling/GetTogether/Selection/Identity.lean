import GetTogether.World
import Mathlib.Data.Fintype.Pigeonhole

/-! Who counts as one user. Two users are `==` when the hashes of their ids are equal, and
the sets a submission builds are sets of such users; the array of ids it writes and the
search that adds a member go by the ids. -/
namespace GetTogether

open Realtime

namespace Runtime

variable (runtime : Runtime)

/-- `GUser.==`. -/
def equal (lhs rhs : GUser) : Bool := runtime.hash lhs = runtime.hash rhs

/-- No two of the ids hash alike. -/
def InjectiveOn (ids : List String) : Prop := Set.InjOn runtime.hashValue {uid | uid ∈ ids}

theorem injectiveOn_append {ids others : List String} : runtime.InjectiveOn (ids ++ others) ↔
    runtime.InjectiveOn ids ∧ runtime.InjectiveOn others ∧
      ∀ uid ∈ ids, ∀ other ∈ others,
        runtime.hashValue uid = runtime.hashValue other → uid = other := by
  simp only [InjectiveOn, Set.InjOn, Set.mem_ofPred_eq, List.mem_append]
  constructor
  · intro h
    exact ⟨fun _ huid _ hother => h (.inl huid) (.inl hother),
      fun _ huid _ hother => h (.inr huid) (.inr hother),
      fun _ huid _ hother => h (.inl huid) (.inr hother)⟩
  · rintro ⟨hids, hothers, hacross⟩ uid (huid | huid) other (hother | hother) hhash
    · exact hids huid hother hhash
    · exact hacross uid huid other hother hhash
    · exact (hacross other hother uid huid hhash.symm).symm
    · exact hothers huid hother hhash

theorem injectiveOn_pair {uid other : String} : runtime.InjectiveOn [uid, other] ↔
    (runtime.hashValue uid = runtime.hashValue other → uid = other) := by
  have hone : ∀ uid, runtime.InjectiveOn [uid] := by simp [InjectiveOn]
  rw [← List.singleton_append, injectiveOn_append]
  simp [hone]

theorem equal_iff {lhs rhs : GUser} : (runtime.equal lhs rhs = true ↔ lhs.userID = rhs.userID) ↔
    runtime.InjectiveOn [lhs.userID, rhs.userID] := by
  rw [injectiveOn_pair, equal, decide_eq_true_iff]
  constructor
  · exact fun h => h.mp
  · exact fun h => ⟨h, congrArg runtime.hashValue⟩

/-- There are more ids than hashes, so no `hashValue` tells all users apart. -/
theorem exists_collision : ∃ lhs rhs : GUser,
    runtime.equal lhs rhs = true ∧ lhs.userID ≠ rhs.userID := by
  have hbits : Function.Injective fun hash : Int64 => hash.toBitVec.toFin := by
    intro hash other hsame
    exact Int64.toBitVec_inj.mp (BitVec.eq_of_toFin_eq hsame)
  have hfinite : Finite Int64 := Finite.of_injective _ hbits
  obtain ⟨m, n, hne, hhash⟩ :=
    Finite.exists_ne_map_eq_of_infinite fun n => runtime.hashValue (AutoId.unary.key n)
  refine ⟨⟨AutoId.unary.key m, "", "", ""⟩, ⟨AutoId.unary.key n, "", "", ""⟩, ?_, ?_⟩
  · exact decide_eq_true hhash
  · intro hkeys
    exact hne (AutoId.unary.injective hkeys)

end Runtime

namespace AddEventVC

def idSet (users : List GUser) : List String := KeyedSet.ofArray id (users.map (·.userID))

theorem mem_idSet {users : List GUser} {uid : String} :
    uid ∈ idSet users ↔ uid ∈ users.map (·.userID) := KeyedSet.mem_ofArray_id

section Sets

variable (vc : AddEventVC) (runtime : Runtime)

def removedMemberSet : List GUser := KeyedSet.ofArray runtime.hash vc.deletedMembers

def memberSet : List GUser := KeyedSet.ofArray runtime.hash vc.members

def originalMemerSet : List GUser := KeyedSet.ofArray runtime.hash vc.originalMemers

/-- `memberSet.subtracting(removedMemberSet)`. -/
def remainingSet : List GUser :=
  KeyedSet.subtracting runtime.hash (vc.memberSet runtime) (vc.removedMemberSet runtime)

def remainingIDs : List String :=
  KeyedSet.subtracting id (idSet vc.members) (idSet vc.deletedMembers)

/-- Element by element, the sets of the completion are those the ids would give. -/
structure SetsGoByID : Prop where
  removedMemberSet : ((vc.removedMemberSet runtime).map (·.userID)).Perm (idSet vc.deletedMembers)
  memberSet : ((vc.memberSet runtime).map (·.userID)).Perm (idSet vc.members)
  originalMemerSet : ((vc.originalMemerSet runtime).map (·.userID)).Perm (idSet vc.originalMemers)
  remaining : ((vc.remainingSet runtime).map (·.userID)).Perm vc.remainingIDs
  editedMembers : ((vc.editedMembers runtime).map (·.userID)).Perm
    (KeyedSet.subtracting id vc.remainingIDs (idSet vc.originalMemers))
  removedMembers : ((vc.removedMembers runtime).map (·.userID)).Perm
    (KeyedSet.subtracting id (idSet vc.deletedMembers) (idSet vc.members))

/-- No two ids hash alike that one of the sets or subtractions holds against each other. -/
structure IDsApart : Prop where
  chosen : runtime.InjectiveOn ((vc.members ++ vc.deletedMembers).map (·.userID))
  original : runtime.InjectiveOn (vc.originalMemers.map (·.userID))
  kept : ∀ member ∈ vc.members, member.userID ∉ vc.deletedMembers.map (·.userID) →
    ∀ original ∈ vc.originalMemers,
      runtime.hash member = runtime.hash original → member.userID = original.userID

end Sets

section Names

variable {vc : AddEventVC} {runtime : Runtime}

theorem ids_ofArray_iff (users : List GUser) :
    ((KeyedSet.ofArray runtime.hash users).map (·.userID)).Perm (idSet users) ↔
      runtime.InjectiveOn (users.map (·.userID)) :=
  KeyedSet.names_ofArray_iff runtime.hash_eq users

theorem ids_subtracting_iff {users removed : List GUser} {uids : List String}
    (hnodup : (users.map runtime.hash).Nodup) (hids : (users.map (·.userID)).Perm uids)
    (hremoved : runtime.InjectiveOn (removed.map (·.userID))) :
    ((KeyedSet.subtracting runtime.hash users (KeyedSet.ofArray runtime.hash removed)).map
        (·.userID)).Perm (KeyedSet.subtracting id uids (idSet removed)) ↔
      ∀ uid ∈ uids, ∀ other ∈ removed.map (·.userID),
        runtime.hashValue uid = runtime.hashValue other → uid = other := by
  have hexact := KeyedSet.names_subtracting_iff runtime.hash_eq hnodup hids
    ((ids_ofArray_iff removed).mpr hremoved)
  apply hexact.trans
  constructor
  · intro h uid huid other hother hhash
    have huid' := h uid huid (hhash ▸ List.mem_map_of_mem (mem_idSet.mpr hother))
    exact hremoved (mem_idSet.mp huid') hother hhash
  · intro h uid huid hhash
    obtain ⟨other, hother, hhash⟩ := List.mem_map.mp hhash
    rw [h uid huid other (mem_idSet.mp hother) hhash.symm]
    exact hother

theorem mem_remainingIDs {uid : String} : uid ∈ vc.remainingIDs ↔
    uid ∈ vc.members.map (·.userID) ∧ uid ∉ vc.deletedMembers.map (·.userID) := by
  rw [remainingIDs, KeyedSet.mem_subtracting_id, mem_idSet, mem_idSet]

theorem ids_editedMembers (ids : List String) :
    ((vc.editedMembers runtime).map (·.userID)).Perm ids ↔
      ((KeyedSet.subtracting runtime.hash (vc.remainingSet runtime)
        (vc.originalMemerSet runtime)).map (·.userID)).Perm ids :=
  ((runtime.users.perm _).map _).congr_left ids

theorem ids_removedMembers (ids : List String) :
    ((vc.removedMembers runtime).map (·.userID)).Perm ids ↔
      ((KeyedSet.subtracting runtime.hash (vc.removedMemberSet runtime)
        (vc.memberSet runtime)).map (·.userID)).Perm ids :=
  ((runtime.users.perm _).map _).congr_left ids

theorem nodup_remainingSet : ((vc.remainingSet runtime).map runtime.hash).Nodup :=
  KeyedSet.nodup_subtracting _ _ (KeyedSet.nodup_ofArray _ _)

theorem ids_subtracting_sets_iff {users removed : List GUser}
    (husers : runtime.InjectiveOn (users.map (·.userID)))
    (hremoved : runtime.InjectiveOn (removed.map (·.userID))) :
    ((KeyedSet.subtracting runtime.hash (KeyedSet.ofArray runtime.hash users)
        (KeyedSet.ofArray runtime.hash removed)).map (·.userID)).Perm
        (KeyedSet.subtracting id (idSet users) (idSet removed)) ↔
      ∀ uid ∈ users.map (·.userID), ∀ other ∈ removed.map (·.userID),
        runtime.hashValue uid = runtime.hashValue other → uid = other := by
  have hexact := ids_subtracting_iff (KeyedSet.nodup_ofArray runtime.hash users)
    ((ids_ofArray_iff users).mpr husers) hremoved
  simpa only [mem_idSet] using hexact

theorem editedMembers_iff (hremaining : ((vc.remainingSet runtime).map (·.userID)).Perm
      vc.remainingIDs) (horiginal : runtime.InjectiveOn (vc.originalMemers.map (·.userID))) :
    ((vc.editedMembers runtime).map (·.userID)).Perm
        (KeyedSet.subtracting id vc.remainingIDs (idSet vc.originalMemers)) ↔
      ∀ member ∈ vc.members, member.userID ∉ vc.deletedMembers.map (·.userID) →
        ∀ original ∈ vc.originalMemers,
          runtime.hash member = runtime.hash original → member.userID = original.userID := by
  rw [ids_editedMembers]
  apply (ids_subtracting_iff nodup_remainingSet hremaining horiginal).trans
  simp only [mem_remainingIDs, and_imp, List.forall_mem_map, Runtime.hash_eq]

theorem setsGoByID_iff : vc.SetsGoByID runtime ↔ vc.IDsApart runtime := by
  constructor
  · intro h
    have hmembers := (ids_ofArray_iff vc.members).mp h.memberSet
    have hdeleted := (ids_ofArray_iff vc.deletedMembers).mp h.removedMemberSet
    have horiginal := (ids_ofArray_iff vc.originalMemers).mp h.originalMemerSet
    have hacross := (ids_subtracting_sets_iff hmembers hdeleted).mp h.remaining
    refine ⟨?_, horiginal, (editedMembers_iff h.remaining horiginal).mp h.editedMembers⟩
    rw [List.map_append, Runtime.injectiveOn_append]
    exact ⟨hmembers, hdeleted, hacross⟩
  · intro h
    have hchosen := h.chosen
    rw [List.map_append, Runtime.injectiveOn_append] at hchosen
    obtain ⟨hmembers, hdeleted, hacross⟩ := hchosen
    have hremaining := (ids_subtracting_sets_iff hmembers hdeleted).mpr hacross
    -- The difference the other way round holds the same pairs against each other.
    have hremoved := (ids_subtracting_sets_iff hdeleted hmembers).mpr
      fun uid huid other hother hhash => (hacross other hother uid huid hhash.symm).symm
    exact
      { removedMemberSet := (ids_ofArray_iff vc.deletedMembers).mpr hdeleted
        memberSet := (ids_ofArray_iff vc.members).mpr hmembers
        originalMemerSet := (ids_ofArray_iff vc.originalMemers).mpr h.original
        remaining := hremaining
        editedMembers := (editedMembers_iff hremaining h.original).mpr h.kept
        removedMembers := (ids_removedMembers _).mpr hremoved }

end Names

/-- Two users are the same, and the sets a submission builds are those of the ids, exactly
when the ids compared hash differently; under every hash some two users are taken for one. -/
theorem users_go_by_id_iff (vc : AddEventVC) (runtime : Runtime) (lhs rhs : GUser) :
    (((runtime.equal lhs rhs = true ↔ lhs.userID = rhs.userID) ∧ vc.SetsGoByID runtime) ↔
      runtime.InjectiveOn [lhs.userID, rhs.userID] ∧ vc.IDsApart runtime) ∧
    ∃ user other, runtime.equal user other = true ∧ user.userID ≠ other.userID :=
  ⟨and_congr runtime.equal_iff setsGoByID_iff, runtime.exists_collision⟩

def ann : GUser := ⟨"Aa", "ann@get.tw", "Ann", ""⟩

def ben : GUser := ⟨"BB", "ben@get.tw", "Ben", ""⟩

def collided : AddEventVC := { newEvent "alice" "2018-12-01 12:00" with members := [ann, ben] }

/-- Only the first of them is invited. -/
theorem collided_invites_one :
    ¬(Runtime.inOrder.equal ann ben = true ↔ ann.userID = ben.userID) ∧
    collided.editedMembers .inOrder = [ann] ∧ ¬collided.SetsGoByID .inOrder := by
  have hequal : Runtime.inOrder.equal ann ben = true := by decide
  have hne : ann.userID ≠ ben.userID := by decide
  refine ⟨fun h => hne (h.mp hequal), by decide, ?_⟩
  intro h
  have hlength := h.memberSet.length_eq
  revert hlength
  decide

end AddEventVC

end GetTogether
