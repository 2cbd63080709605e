import GetTogether.DataModels

/-! The profile screen and the edit screen it opens. The edit screen takes the account
from the sign-in state but the email from the user it was opened with. -/
namespace GetTogether

open Realtime

structure ProfileVC where
  /-- Whether `viewDidLoad` has run; the screen hears of logins and logouts from then on. -/
  isLoaded : Bool := false
  user : Option GUser := none
  editBtn : Bool := false
  /-- The accounts of the observers of `queryUserInfo`; none is ever removed. -/
  observers : List String := []
  deriving DecidableEq, Repr

namespace ProfileVC

def queryUserInfo (vc : ProfileVC) (currentUser : String) : ProfileVC :=
  { vc with observers := vc.observers ++ [currentUser] }

def didUserLogin (vc : ProfileVC) : Option String → ProfileVC
  | some currentUser => { vc with editBtn := true }.queryUserInfo currentUser
  | none => vc

def viewDidLoad (vc : ProfileVC) : Option String → ProfileVC
  | some currentUser => { vc with isLoaded := true, editBtn := true }.queryUserInfo currentUser
  | none => { vc with isLoaded := true, editBtn := false }

/-- The labels and the image are reset; `user` is not. -/
def didUserLogout (vc : ProfileVC) : ProfileVC := { vc with editBtn := false }

/-- The callback of `queryUserInfo`; without a record nothing changes. -/
def delivered (vc : ProfileVC) (db : Store) (currentUser : String) : Option ProfileVC :=
  if db.contains ["user", currentUser] then do
    let user ← GUser.read db ["user", currentUser]
    return { vc with user := some user }
  else return vc

end ProfileVC

/-- What the closure of `uploadUserData` holds: the account that was signed in when done
was pressed, and the user of the edit screen. -/
structure EditProfileInfoVC.Upload where
  uid : String
  user : GUser
  deriving DecidableEq, Repr

namespace EditProfileInfoVC

/-- `uploadUserData` up to the upload of the image. -/
def uploadUserData (user : GUser) : Option String → Option Upload
  | some uid => some { uid, user }
  | none => none

/-- The record written when the image is uploaded. -/
def uploadedUser (upload : Upload) (name url : String) : GUser where
  userID := upload.uid
  email := upload.user.email
  name := name
  profileImageURL := url

def uploaded (upload : Upload) (name url : String) : List Write :=
  [.setValue ["user", upload.uid] (uploadedUser upload name url).uploadedUserData]

end EditProfileInfoVC

end GetTogether
