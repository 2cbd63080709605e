import GetTogether.InvitingMemberVC

/-! The screen that searches the users. It never reads a user again once the observer has
brought them, and a tap hands the user of the row to the edit screen. -/
namespace GetTogether

open Realtime

structure MemberSearchVC where
  memberData : List GUser := []
  matchingItems : List GUser := []
  /-- The users the observer of `viewDidLoad` has been called for. -/
  added : List String := []
  deriving DecidableEq, Repr

namespace MemberSearchVC

/-- The observer is called for a child that is there, or appears; once for each. -/
def childAdded (vc : MemberSearchVC) (db : Store) (uid : String) : Option MemberSearchVC :=
  if InvitingMemberVC.isDictionary db ["user", uid] then
    (GUser.read db ["user", uid]).map fun member =>
      { vc with memberData := vc.memberData ++ [member], added := vc.added ++ [uid] }
  else some { vc with added := vc.added ++ [uid] }

/-- `contains text searchText` is `text.localizedCaseInsensitiveContains(searchText)`. -/
def isMatch (contains : String → String → Bool) (searchText : String) (member : GUser) : Bool :=
  contains member.name searchText || contains member.email searchText

def filterMemberData (contains : String → String → Bool) (vc : MemberSearchVC)
    (searchText : String) : MemberSearchVC :=
  { vc with matchingItems := vc.memberData.filter (isMatch contains searchText) }

/-- The table is reloaded at once, so its rows are always `matchingItems`. -/
def updateSearchResults (contains : String → String → Bool) (vc : MemberSearchVC) :
    Option String → MemberSearchVC
  | some searchText => vc.filterMemberData contains searchText
  | none => vc

def didSelectRowAt (vc : MemberSearchVC) (row : Nat) : Option GUser := vc.matchingItems[row]?

theorem childAdded_of_read {vc : MemberSearchVC} {db : Store} {uid : String} {user : GUser}
    (hread : GUser.read db ["user", uid] = some user) : vc.childAdded db uid =
      some { vc with memberData := vc.memberData ++ [user], added := vc.added ++ [uid] } := by
  simp [childAdded, InvitingMemberVC.isDictionary_of_read hread, hread]

end MemberSearchVC

end GetTogether
