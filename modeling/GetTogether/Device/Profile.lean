import GetTogether.Device.Rules
import GetTogether.Realtime.Run

/-! Whose email a profile edit writes. The account is the one signed in when done is
pressed; the email is that of the user the edit screen was opened with, and logging out
does not clear that user. -/
namespace GetTogether.Device

open Realtime EditProfileInfoVC

/-- A profile edit writes a record of its own account, with the email that is stored. -/
def WritesOwn (s : Device) : Action → Prop
  | .uploaded upload name url => ∀ closure, s.uploads[upload]? = some closure →
      ∃ user : GUser,
        uploaded closure name url = [.setValue ["user", closure.uid] user.uploadedUserData] ∧
        user.userID = closure.uid ∧ s.db.string? ["user", closure.uid, "email"] = some user.email
  | _ => True

/-- The edit screen was opened with the user of the account that was signed in when done
was pressed, or with that of an account with the same email. -/
def OpenedWithOwn (s : Device) : Action → Prop
  | .uploaded upload _ _ => ∀ closure, s.uploads[upload]? = some closure →
      closure.user.userID = closure.uid ∨
        s.db.string? ["user", closure.uid, "email"] =
          s.db.string? ["user", closure.user.userID, "email"]
  | _ => True

def Holds (s : Device) (user : GUser) : Prop :=
  s.profile.user = some user ∨ s.editing = some user ∨ ∃ upload ∈ s.uploads, upload.user = user

/-- Every user that is held has the email that is stored for it. -/
structure Emails (s : Device) : Prop where
  keys : ∀ uid value, s.db.get ["user", uid, "userID"] = some value → value = .string uid
  held : ∀ user, s.Holds user → s.db.string? ["user", user.userID, "email"] = some user.email

theorem Emails.empty : Emails Device.empty where
  keys uid value h := by simp [Device.empty] at h
  held user h := by
    rcases h with h | h | ⟨upload, h, -⟩
    · cases h
    · cases h
    · exact absurd h List.not_mem_nil

variable {s s' : Device} {a : Action}

theorem Emails.of_same (h : Emails s)
    (hdb : ∀ rest, s'.db.get ("user" :: rest) = s.db.get ("user" :: rest))
    (hheld : ∀ user, s'.Holds user → s.Holds user) : Emails s' where
  keys uid value hvalue := h.keys uid value (by rwa [hdb] at hvalue)
  held user huser := by
    rw [Store.string?, hdb, ← Store.string?]
    exact h.held user (hheld user huser)

/-- They stay in step when a record is saved with the email that is stored, or without
anyone holding its user. -/
theorem Emails.of_saved (h : Emails s) (user : GUser)
    (hdb : s'.db = s.db.setValue ["user", user.userID] user.uploadedUserData)
    (hemail : ∀ email, s.db.string? ["user", user.userID, "email"] = some email →
      email = user.email)
    (hheld : ∀ user, s'.Holds user → s.Holds user) : Emails s' where
  keys uid value hvalue := by
    rw [hdb, Store.get_setValue] at hvalue
    by_cases hsame : user.userID = uid
    · subst hsame
      simpa [GUser.uploadedUserData, eq_comm] using hvalue
    · exact h.keys uid value (by simpa [hsame] using hvalue)
  held other hother := by
    have hstored := h.held other (hheld other hother)
    by_cases hsame : user.userID = other.userID
    · have heq := hemail other.email (hsame ▸ hstored)
      simp [hdb, Store.string?, Store.get_setValue, hsame, GUser.uploadedUserData, heq,
        Scalar.string?]
    · rw [hdb, Store.string?, Store.get_setValue, if_neg (by simpa using hsame), ← Store.string?]
      exact hstored

theorem email_of_savable {user : GUser} {email : String} (h : savable s.db user = true)
    (hemail : s.db.string? ["user", user.userID, "email"] = some email) : email = user.email := by
  have hcontains : s.db.contains ["user", user.userID] = true := by
    rw [Store.contains_iff]
    exact ⟨["email"], _, Store.string?_eq_some.mp hemail⟩
  have hsame : user.userID ≠ "" ∧
      s.db.string? ["user", user.userID, "email"] = some user.email := by
    simpa [savable, hcontains] using h
  exact Option.some.inj (hemail.symm.trans hsame.2)

theorem user_of_selectRow (s : Device) (row : Nat) (rest : Path) :
    (s.selectRow row).db.get ("user" :: rest) = s.db.get ("user" :: rest) := by
  unfold selectRow
  split
  · rename_i writes _ hwrites
    refine get_applyAll_of_apart ?_ rest
    intro write hwrite
    simp only [NotificationVC.didSelectRowAt, Option.bind_eq_bind, Option.bind_eq_some_iff,
      Option.pure_def, Option.some.injEq] at hwrites
    obtain ⟨notification, -, rfl⟩ := hwrites
    obtain rfl := List.mem_singleton.mp hwrite
    exact Write.apart_of_topKey rfl (by decide)
  · rfl

theorem holds_of_same {user : GUser} (huser : s'.profile.user = s.profile.user)
    (hediting : s'.editing = s.editing) (huploads : s'.uploads = s.uploads)
    (h : s'.Holds user) : s.Holds user := by
  unfold Holds at h ⊢
  rwa [huser, hediting, huploads] at h

theorem profileUser_queryIfSignedIn (vc : ProfileVC) (currentUser : Option String) :
    (vc.didUserLogin currentUser).user = vc.user ∧ (vc.viewDidLoad currentUser).user = vc.user ∧
      vc.didUserLogout.user = vc.user := by
  cases currentUser <;> exact ⟨rfl, rfl, rfl⟩

theorem user_of_upload {user : GUser} {currentUser : Option String} {upload : Upload}
    (h : upload ∈ (uploadUserData user currentUser).toList) : upload.user = user := by
  cases currentUser with
  | none => cases h
  | some uid => rw [List.mem_singleton.mp h]

theorem Emails.of_delivered (h : Emails s) {uid : String} {profile : ProfileVC} {user : GUser}
    (hdelivered : s.profile.delivered s.db uid = some profile) (huser : profile.user = some user) :
    s.db.string? ["user", user.userID, "email"] = some user.email := by
  unfold ProfileVC.delivered at hdelivered
  split at hdelivered
  · obtain ⟨read, hread, hsame⟩ := Option.bind_eq_some_iff.mp hdelivered
    obtain rfl := Option.some.inj hsame
    obtain rfl : read = user := Option.some.inj huser
    obtain ⟨hid, hemail, -⟩ := GUser.read_eq_some.mp hread
    obtain rfl : read.userID = uid := Scalar.string.inj (h.keys uid _ hid)
    exact Store.string?_eq_some.mpr hemail
  · obtain rfl := Option.some.inj hdelivered
    exact h.held user (.inl huser)

theorem Emails.of_upload (h : Emails s) {upload : Nat} {closure : Upload}
    (hclosure : s.uploads[upload]? = some closure) :
    s.db.string? ["user", closure.user.userID, "email"] = some closure.user.email :=
  h.held closure.user (.inr (.inr ⟨closure, List.mem_of_getElem? hclosure, rfl⟩))

theorem Emails.email_of_opened (h : Emails s) {upload : Nat} {name url : String}
    {closure : Upload} (hclosure : s.uploads[upload]? = some closure)
    (hopened : OpenedWithOwn s (.uploaded upload name url)) :
    s.db.string? ["user", closure.uid, "email"] = some closure.user.email := by
  have hheld := h.of_upload hclosure
  rcases hopened closure hclosure with huid | hemail
  · exact huid ▸ hheld
  · exact hemail.trans hheld

theorem writesOwn_iff (h : Emails s) : WritesOwn s a ↔ OpenedWithOwn s a := by
  cases a with
  | uploaded upload name url =>
    constructor
    · intro howns closure hclosure
      have hheld := h.of_upload hclosure
      obtain ⟨user, hwrite, -, hemail⟩ := howns closure hclosure
      have huser : closure.user.email = user.email := by
        have hdata : (uploadedUser closure name url).uploadedUserData = user.uploadedUserData := by
          simpa [uploaded] using hwrite
        simp [GUser.uploadedUserData, Tree.object, uploadedUser] at hdata
        exact hdata.2.1
      exact .inr (hemail.trans (huser ▸ hheld.symm))
    · intro hopened closure hclosure
      exact ⟨uploadedUser closure name url, rfl, rfl, h.email_of_opened hclosure hopened⟩
  | _ => exact Iff.rfl

theorem Emails.step (h : Emails s) (hopened : OpenedWithOwn s a) (hstep : Step s a s') :
    Emails s' := by
  have hframe := hstep.frame
  have hdb := hstep.same_db
  have hprofile := fun user (ha : a.reachesProfile = false) (hholds : s'.Holds user) =>
    holds_of_same (congrArg (·.user) (hframe.profile ha).1) (hframe.profile ha).2.1
      (hframe.profile ha).2.2 hholds
  cases hstep with
  | write htop =>
    obtain ⟨head, hhead, hne⟩ := (Option.any_eq_true _ _).mp htop
    refine h.of_same (fun rest => ?_) fun user => hprofile user rfl
    have hapart := Write.apart_of_topKey hhead (of_decide_eq_true hne)
    exact get_applyAll_of_apart (List.forall_mem_singleton.mpr hapart) rest
  | @saveUser user hsavable =>
    exact h.of_saved user rfl (fun email => email_of_savable hsavable) fun other =>
      hprofile other rfl
  | @selectRow row _ => exact h.of_same (s.user_of_selectRow row) fun user => hprofile user rfl
  | login =>
    refine h.of_same (fun _ => rfl) fun user => holds_of_same ?_ rfl rfl
    unfold login
    dsimp only
    split
    · exact (profileUser_queryIfSignedIn _ _).1
    · rfl
  | logout _ =>
    refine h.of_same (fun _ => rfl) fun user => holds_of_same ?_ rfl rfl
    unfold logout
    dsimp only
    split <;> rfl
  | profileDidLoad _ =>
    exact h.of_same (fun _ => rfl) fun user =>
      holds_of_same (profileUser_queryIfSignedIn _ _).2.1 rfl rfl
  | userDelivered _ hdelivered =>
    refine ⟨h.keys, fun user hholds => ?_⟩
    rcases hholds with huser | hother
    · exact h.of_delivered hdelivered huser
    · exact h.held user (.inr hother)
  | editPressed _ huser =>
    refine h.of_same (fun _ => rfl) fun other hholds => ?_
    rcases hholds with hprofileUser | hediting | hupload
    · exact .inl hprofileUser
    · exact .inl (huser.trans hediting)
    · exact .inr (.inr hupload)
  | editBack _ =>
    refine h.of_same (fun _ => rfl) fun other hholds => ?_
    rcases hholds with hprofileUser | hediting | hupload
    · exact .inl hprofileUser
    · cases hediting
    · exact .inr (.inr hupload)
  | donePressed hediting =>
    refine h.of_same (fun _ => rfl) fun other hholds => ?_
    rcases hholds with hprofileUser | hnone | ⟨upload, hupload, rfl⟩
    · exact .inl hprofileUser
    · cases hnone
    · rcases List.mem_append.mp hupload with hold | hnew
      · exact .inr (.inr ⟨upload, hold, rfl⟩)
      · exact .inr (.inl (hediting.trans (congrArg some (user_of_upload hnew).symm)))
  | @uploaded upload name url closure hclosure =>
    have hemail := h.email_of_opened hclosure hopened
    refine h.of_saved (uploadedUser closure name url) rfl (fun email hstored => ?_) fun other => ?_
    · exact Option.some.inj (hstored.symm.trans hemail)
    · rintro (hprofileUser | hediting | ⟨held, hheld, rfl⟩)
      · exact .inl hprofileUser
      · exact .inr (.inl hediting)
      · exact .inr (.inr ⟨held, List.mem_of_mem_eraseIdx hheld, rfl⟩)
  | _ =>
    refine h.of_same (fun rest => ?_) fun user => hprofile user rfl
    rw [hdb rfl]

/-- In a run every profile edit writes the own record with the stored email, exactly when
every edit screen was opened with the user of the account that saves it. -/
theorem profile_edit_own_iff (actions : List Action) :
    EachStep step WritesOwn empty actions ↔ EachStep step OpenedWithOwn empty actions :=
  eachStep_iff Emails (fun _ _ _ hemails _ => writesOwn_iff hemails)
    (fun _ _ _ hemails hopened hstep => hemails.step hopened (.of_step hstep)) Emails.empty actions

/-- Alice logs out, Bob signs in and edits his profile before his record is delivered. -/
def editedTooEarly : List Action :=
  [.saveUser ⟨"alice", "alice@mail.com", "Alice", "a.jpg"⟩,
    .saveUser ⟨"bob", "bob@mail.com", "Bob", "b.jpg"⟩,
    .signIn "alice", .profileDidLoad, .userDelivered 0, .logout,
    .signIn "bob", .login, .editPressed, .donePressed]

/-- Alice's email is written into Bob's record. -/
theorem edit_writes_other_email :
    ∃ s s', exec step empty editedTooEarly = some s ∧
      s.step (.uploaded 0 "Bob" "c.jpg") = some s' ∧
      s.db.string? ["user", "bob", "email"] = some "bob@mail.com" ∧
      s'.db.string? ["user", "bob", "email"] = some "alice@mail.com" ∧
      ¬WritesOwn s (.uploaded 0 "Bob" "c.jpg") := by
  have hrun : ((exec step empty editedTooEarly).any fun s =>
      s.uploads = [⟨"bob", "alice", "alice@mail.com", "Alice", "a.jpg"⟩] ∧
      s.db.string? ["user", "bob", "email"] = some "bob@mail.com" ∧
      (s.step (.uploaded 0 "Bob" "c.jpg")).any fun s' =>
        s'.db.string? ["user", "bob", "email"] = some "alice@mail.com") = true := by decide
  obtain ⟨s, hs, h⟩ := (Option.any_eq_true _ _).mp hrun
  obtain ⟨huploads, hbob, hafter⟩ := of_decide_eq_true h
  obtain ⟨s', hs', hemail⟩ := (Option.any_eq_true _ _).mp hafter
  refine ⟨s, s', hs, hs', hbob, of_decide_eq_true hemail, fun howns => ?_⟩
  obtain ⟨user, hwrite, -, hstored⟩ := howns _ (by rw [huploads]; rfl)
  have hother : some user.email = some "bob@mail.com" := hstored.symm.trans hbob
  simp [uploaded, uploadedUser, GUser.uploadedUserData, Tree.object] at hwrite
  rw [← hwrite.2.1] at hother
  exact absurd hother (by decide)

end GetTogether.Device
