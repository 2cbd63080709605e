import GetTogether.DataModels

/-! Registering and signing in. A user record is written by the completion of the
registration's image upload, or by a Google or Facebook sign-in that finds none; signing
in with an email writes nothing. -/
namespace GetTogether

open Realtime

namespace RegisterVC

structure Form where
  email : String
  password : String
  checkPassword : String
  username : String

/-- The checks of `registerPressed`. -/
def accepts (form : Form) : Bool :=
  form.email ≠ "" ∧ form.password ≠ "" ∧ form.checkPassword ≠ "" ∧ form.username ≠ "" ∧
    form.checkPassword = form.password

inductive Waiting where
  | putData
  | downloadURL
  deriving DecidableEq, Repr

/-- The closure of `uploadUserData`; the texts are read when it runs. -/
structure Upload where
  uid : String
  waiting : Waiting := .putData
  deriving DecidableEq, Repr

/-- `uploadUserData` up to the upload of the image, which may be missing. -/
def uploadUserData (currentUser : Option String) (hasImage : Bool) : Option Upload := do
  let uid ← currentUser
  if hasImage then return { uid } else none

def uploadedUser (upload : Upload) (email name url : String) : GUser where
  userID := upload.uid
  email := email
  name := name
  profileImageURL := url

end RegisterVC

inductive Provider where
  | google
  | facebook
  deriving DecidableEq, Repr

/-- The account as Google or Facebook describes it. -/
structure ProviderUser where
  uid : String
  email : Option String := none
  phoneNumber : Option String := none
  displayName : Option String := none
  photoURL : Option String := none
  deriving DecidableEq, Repr

def Provider.unnamed : Provider → String
  | .google => "Google 使用者"
  | .facebook => "Facebook 使用者"

def Provider.gUser (provider : Provider) (user : ProviderUser) : GUser where
  userID := user.uid
  email := (user.email.or user.phoneNumber).getD provider.unnamed
  name := user.displayName.getD ""
  profileImageURL := user.photoURL.getD ""

/-- A read of the user record that a sign-in has started. -/
structure RecordRead where
  device : Nat
  gUser : GUser
  deriving DecidableEq, Repr

structure SignIn where
  db : Store
  /-- The accounts the authentication service knows. -/
  accounts : List String
  /-- `Auth.auth().currentUser` on each device. -/
  signedIn : Nat → Option String
  uploads : List RegisterVC.Upload
  reads : List RecordRead

namespace SignIn

/-- What comes back from the services; what fails without an effect is no action. -/
inductive Action where
  | userCreated (device : Nat) (uid : String) (form : RegisterVC.Form) (hasImage : Bool)
  | putData (upload : Nat) (succeeds : Bool)
  | downloadURL (upload : Nat) (url : Option String) (email name : String)
  | emailSignedIn (device : Nat) (uid : String)
  | providerSignedIn (device : Nat) (provider : Provider) (user : ProviderUser)
  /-- A record read comes back, or never will. -/
  | recordRead (read : Nat)
  | readFailed (read : Nat)
  | signOut (device : Nat)

def start : SignIn := ⟨.empty, [], fun _ => none, [], []⟩

def createdRecord (db : Store) (gUser : GUser) : List Write :=
  if db.contains ["user", gUser.userID] then []
  else [.setValue ["user", gUser.userID] gUser.uploadedUserData]

def step (s : SignIn) : Action → Option SignIn
  | .userCreated device uid form hasImage =>
    if RegisterVC.accepts form ∧ uid ≠ "" ∧ uid ∉ s.accounts then
      some { s with
        accounts := uid :: s.accounts
        signedIn := Function.update s.signedIn device (some uid)
        uploads := s.uploads ++ (RegisterVC.uploadUserData (some uid) hasImage).toList }
    else none
  | .putData upload succeeds => do
    let closure ← s.uploads[upload]?
    if closure.waiting = .putData then
      return { s with
        uploads :=
          if succeeds then s.uploads.set upload { closure with waiting := .downloadURL }
          else s.uploads.eraseIdx upload }
    else none
  | .downloadURL upload url email name => do
    let closure ← s.uploads[upload]?
    if closure.waiting = .downloadURL then
      return { s with
        db := match url with
          | some url => s.db.setValue ["user", closure.uid]
              (RegisterVC.uploadedUser closure email name url).uploadedUserData
          | none => s.db
        uploads := s.uploads.eraseIdx upload }
    else none
  | .emailSignedIn device uid =>
    if uid ∈ s.accounts then
      some { s with signedIn := Function.update s.signedIn device (some uid) }
    else none
  | .providerSignedIn device provider user =>
    if user.uid = "" then none
    else some { s with
      accounts := user.uid :: s.accounts
      signedIn := Function.update s.signedIn device (some user.uid)
      reads := s.reads ++ [⟨device, provider.gUser user⟩] }
  | .recordRead read => do
    let pending ← s.reads[read]?
    return { s with
      db := s.db.applyAll (createdRecord s.db pending.gUser)
      reads := s.reads.eraseIdx read }
  | .readFailed read => do
    let _ ← s.reads[read]?
    return { s with reads := s.reads.eraseIdx read }
  | .signOut device => some { s with signedIn := Function.update s.signedIn device none }

def posts (s : SignIn) : Action → Option Nat
  | .emailSignedIn device _ => some device
  | .recordRead read => (s.reads[read]?).map (·.device)
  | _ => none

/-- The record of the account with all its fields, under its own id. -/
def Complete (db : Store) (uid : String) : Prop :=
  ∃ user, GUser.read db ["user", uid] = some user ∧ user.userID = uid

/-- When a login is posted, the account signed in there has a complete record. -/
def PostsComplete (s : SignIn) (a : Action) : Prop :=
  ∀ device s', s.posts a = some device → s.step a = some s' →
    ∀ uid, s'.signedIn device = some uid → Complete s'.db uid

/-- The accounts whose record has been written: a registration got the address of its
image, or the record read of a Google or Facebook sign-in came back. -/
def note (written : List String) (s : SignIn) : Action → List String
  | .downloadURL upload (some _) _ _ =>
    ((s.uploads[upload]?).map (·.uid)).toList ++ written
  | .recordRead read => ((s.reads[read]?).map (·.gUser.userID)).toList ++ written
  | _ => written

/-- An email sign-in is one of an account whose record has been written, and a record
read comes back while its own account is signed in, or another such account. -/
def RecordWritten (s : List String × SignIn) : Action → Prop
  | .emailSignedIn _ uid => uid ∈ s.1
  | .recordRead read => ∀ pending, s.2.reads[read]? = some pending →
      ∀ uid, s.2.signedIn pending.device = some uid → uid = pending.gUser.userID ∨ uid ∈ s.1
  | _ => True

end SignIn

end GetTogether
