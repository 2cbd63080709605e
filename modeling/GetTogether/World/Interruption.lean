import GetTogether.Roster.Agreement
import GetTogether.Roster.Interruption
import GetTogether.World.Mirror
import GetTogether.World.Recipients

/-! The app killed in the middle of an operation. The writes go out one by one, so the
database keeps a prefix of them; which prefixes leave the membership consistent is known
exactly for each operation and for every copy of the event its screen may hold. -/
namespace GetTogether

open Realtime Roster

namespace World

/-- Whoever has answered and counts as a member is in the array of the event, and
whoever is listed as invited can still answer. -/
def Consistent (db : Store) : Prop :=
  ∀ eventID uid,
    (db.bool? ["invitingEventList", uid, eventID, "isReply"] = some true ∧
      db.bool? ["invitingEventList", uid, eventID, "isMember"] = some true →
        uid ∈ (db.array? ["event", eventID, "memberIDs"]).getD []) ∧
    (db.contains ["invitingMemberList", eventID, uid] = true →
      db.bool? ["invitingEventList", uid, eventID, "isReply"] = some false)

/-- Without the organiser's record a submission with anyone to remove or to invite stops
by itself after two writes. -/
def reached (vc : AddEventVC) (runtime : Runtime) (n : Nat) : Nat :=
  if Completes vc runtime then n else min n 2

variable {ids : AutoId} {w w' : World} {a : Action} {db : Store}

theorem consistent_iff_children : Consistent db ↔
    (∀ uid ∈ db.children ["invitingEventList"], ∀ eventID ∈ db.children ["invitingEventList", uid],
      db.bool? ["invitingEventList", uid, eventID, "isReply"] = some true ∧
        db.bool? ["invitingEventList", uid, eventID, "isMember"] = some true →
          uid ∈ (db.array? ["event", eventID, "memberIDs"]).getD []) ∧
    ∀ eventID ∈ db.children ["invitingMemberList"],
      ∀ uid ∈ db.children ["invitingMemberList", eventID],
        db.bool? ["invitingEventList", uid, eventID, "isReply"] = some false := by
  constructor
  · intro h
    refine ⟨fun uid _ eventID _ => (h eventID uid).1, fun eventID _ uid huid => ?_⟩
    exact (h eventID uid).2 ((db.mem_children_iff_contains _ _).mp huid)
  · rintro ⟨hjoined, hlisted⟩ eventID uid
    constructor
    · intro hboth
      have hleaf := Store.bool?_eq_some.mp hboth.1
      exact hjoined uid ((db.mem_children _ _).mpr ⟨[eventID, "isReply"], _, hleaf⟩)
        eventID ((db.mem_children _ _).mpr ⟨["isReply"], _, hleaf⟩) hboth
    · intro hnode
      obtain ⟨rest, value, hget⟩ := (db.contains_iff _).mp hnode
      exact hlisted eventID ((db.mem_children _ _).mpr ⟨uid :: rest, value, hget⟩)
        uid ((db.mem_children _ _).mpr ⟨rest, value, hget⟩)

instance (db : Store) : Decidable (Consistent db) := decidable_of_iff _ consistent_iff_children.symm

def prompted : List Action :=
  creation ++ [.openEvent "bob" "k" (some "kk"), .queryEventList 0, .userFetched 0 0 "2018-12-02"]

end World

end GetTogether
