import GetTogether.DataModels
import GetTogether.Realtime.Gathering
import Mathlib.Data.List.ReduceOption

/-! The screen that lists who was invited to an event and has not answered. -/
namespace GetTogether

open Realtime

namespace InvitingMemberVC

/-- The ids below the event; every one of them is cast. -/
def invitingMemberIDs (db : Store) (eventID : String) : Option (List String) :=
  (db.children ["invitingMemberList", eventID]).mapM fun key =>
    db.string? ["invitingMemberList", eventID, key, "invitingMemberID"]

/-- The fetch of one user: nothing when there is no such user, else a cast of the record. -/
def fetchUser (db : Store) (uid : String) : Option (Option GUser) :=
  if db.contains ["user", uid] then (GUser.read db ["user", uid]).map some else some none

/-- `invitingMemberData` when all fetches have come back. -/
def queryInvitingMemberData (db : Store) (eventID : String) : Option (List GUser) := do
  let uids ← invitingMemberIDs db eventID
  let users ← uids.mapM (fetchUser db)
  return users.reduceOption

/-! The same query with its callbacks one by one. -/

/-- Whether `as? [String : Any]` gives a dictionary: something lies below the node. -/
def isDictionary (db : Store) (path : Path) : Bool := !(db.children path).isEmpty

inductive Ending where
  | finished
  | returned
  | trapped
  deriving DecidableEq, Repr

/-- The fetches that the loop over the listed nodes starts. It returns at a node that is
no dictionary and traps at one without an id. -/
def startFetches (db : Store) (eventID : String) : List String → List String × Ending
  | [] => ([], .finished)
  | key :: keys =>
    if isDictionary db ["invitingMemberList", eventID, key] then
      match db.string? ["invitingMemberList", eventID, key, "invitingMemberID"] with
      | none => ([], .trapped)
      | some uid => ((uid :: (startFetches db eventID keys).1), (startFetches db eventID keys).2)
    else ([], .returned)

end InvitingMemberVC

structure InvitingMemberVC where
  fetches : List String
  invitingMemberData : List GUser := []
  ending : InvitingMemberVC.Ending
  deriving DecidableEq, Repr

namespace InvitingMemberVC

def listed (db : Store) (eventID : String) : InvitingMemberVC where
  fetches := (startFetches db eventID (db.children ["invitingMemberList", eventID])).1
  ending := (startFetches db eventID (db.children ["invitingMemberList", eventID])).2

/-- The fetch of a user comes back with what the database holds then. -/
def userFetched (vc : InvitingMemberVC) (db : Store) (index : Nat) (uid : String) :
    InvitingMemberVC :=
  if isDictionary db ["user", uid] then
    match GUser.read db ["user", uid] with
    | none => { vc with fetches := vc.fetches.eraseIdx index, ending := .trapped }
    | some user => { vc with
        fetches := vc.fetches.eraseIdx index
        invitingMemberData := vc.invitingMemberData ++ [user] }
  else { vc with fetches := vc.fetches.eraseIdx index }

/-- Any of the fetches may come back next; nothing does after a trap. The database may
have changed since the list was read. -/
def step (found : String → Store) (vc : InvitingMemberVC) (index : Nat) :
    Option InvitingMemberVC :=
  if vc.ending = .trapped then none
  else (vc.fetches[index]?).map fun uid => vc.userFetched (found uid) index uid

def gathering (vc : InvitingMemberVC) : Gathering String GUser :=
  ⟨vc.fetches, vc.invitingMemberData⟩

theorem isDictionary_iff (db : Store) (path : Path) : isDictionary db path = true ↔
    ∃ key rest value, db.get (path ++ key :: rest) = some value := by
  rw [isDictionary, Bool.not_eq_true', List.isEmpty_eq_false_iff_exists_mem]
  simp only [Store.mem_children]

/-- The loop comes to its end when every node is a dictionary that repeats its key. -/
theorem startFetches_eq {db : Store} {eventID : String} {keys : List String}
    (h : ∀ key ∈ keys, db.string? ["invitingMemberList", eventID, key, "invitingMemberID"] =
      some key) : startFetches db eventID keys = (keys, .finished) := by
  induction keys with
  | nil => rfl
  | cons key keys ih =>
    have hkey := h key List.mem_cons_self
    have hdictionary : isDictionary db ["invitingMemberList", eventID, key] = true := by
      rw [isDictionary_iff]
      exact ⟨"invitingMemberID", [], _, Store.string?_eq_some.mp hkey⟩
    rw [startFetches, if_pos hdictionary, hkey, ih fun other hother =>
      h other (List.mem_cons_of_mem key hother)]

/-- A user node, when there is one, is a complete record. -/
def Castable (db : Store) (uid : String) : Prop :=
  isDictionary db ["user", uid] = true → (GUser.read db ["user", uid]).isSome = true

theorem isDictionary_of_read {db : Store} {uid : String} {user : GUser}
    (h : GUser.read db ["user", uid] = some user) : isDictionary db ["user", uid] = true := by
  rw [isDictionary_iff]
  exact ⟨"userID", [], _, (GUser.read_eq_some.mp h).1⟩

theorem userFetched_eq (vc : InvitingMemberVC) {db : Store} {uid : String}
    (h : Castable db uid) (index : Nat) : vc.userFetched db index uid = { vc with
      fetches := vc.fetches.eraseIdx index
      invitingMemberData := vc.invitingMemberData ++ (GUser.read db ["user", uid]).toList } := by
  unfold userFetched
  cases hread : GUser.read db ["user", uid] with
  | none =>
    have hnone : isDictionary db ["user", uid] ≠ true := by
      intro hdictionary
      simpa [hread] using h hdictionary
    rw [if_neg hnone]
    simp
  | some user =>
    rw [if_pos (isDictionary_of_read hread)]
    rfl

theorem step_gathering {found : String → Store} (hfound : ∀ uid, Castable (found uid) uid)
    {vc vc' : InvitingMemberVC} {index : Nat} (hvc : vc.ending = .finished)
    (h : vc.step found index = some vc') : vc'.ending = .finished ∧
      vc.gathering.step (fun uid => GUser.read (found uid) ["user", uid]) index =
        some vc'.gathering := by
  unfold step at h
  rw [if_neg (by simp [hvc])] at h
  obtain ⟨uid, huid, rfl⟩ := Option.map_eq_some_iff.mp h
  rw [userFetched_eq vc (hfound uid)]
  refine ⟨hvc, ?_⟩
  unfold Gathering.step gathering
  rw [huid, Option.map_some]

theorem exec_gathering {found : String → Store} (hfound : ∀ uid, Castable (found uid) uid)
    {vc final : InvitingMemberVC} (hvc : vc.ending = .finished) {order : List Nat}
    (h : exec (step found) vc order = some final) : final.ending = .finished ∧
      exec (Gathering.step fun uid => GUser.read (found uid) ["user", uid]) vc.gathering order =
        some final.gathering := by
  have hstep : ∀ (vc : InvitingMemberVC) index vc', vc.ending = .finished →
      vc.step found index = some vc' → vc'.ending = .finished ∧
        vc.gathering.step (fun uid => GUser.read (found uid) ["user", uid]) index =
          some vc'.gathering :=
    fun vc index vc' hvc hstep => step_gathering hfound hvc hstep
  exact exec_seen gathering hstep hvc order h

end InvitingMemberVC

end GetTogether
