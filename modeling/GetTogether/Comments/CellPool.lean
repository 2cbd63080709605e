import GetTogether.CommentVC
import GetTogether.InvitingMemberVC
import GetTogether.Realtime.Run

/-! The cells of the comment screen. A cell is used for one row after another, and every
row starts a fetch of its author, and perhaps a download of the author's picture, whose
callbacks write to the cell whatever it shows by then. -/
namespace GetTogether

open Realtime

/-- What the callbacks of the screen are given: the users' records, the pictures on the
server and the zone of the device. -/
structure Backend (Image : Type) where
  db : Store
  isURL : String → Bool
  picture : String → Option Image
  device : TimeZone

def Backend.author {Image : Type} (backend : Backend Image) (comment : Comment) : Option GUser :=
  GUser.read backend.db ["user", comment.userID]

structure CommentCell (Image : Type) where
  comment : Option Comment := none
  commentContent : Option String := none
  userName : Option String := none
  /-- The text, and the moment it was worked out. -/
  timeInterval : Option (String × ℚ) := none
  userProfileImageView : Option Image := none
  /-- Whose callback set the labels last, and when. The screen does not show it and no
  callback looks at it. -/
  labelledFor : Option (Comment × ℚ) := none

/-- The content is set and the picture taken away; the two labels stay. -/
def CommentCell.reused {Image : Type} (commentCell : CommentCell Image) (comment : Comment) :
    CommentCell Image :=
  { commentCell with
    comment := some comment
    commentContent := some comment.content
    userProfileImageView := none }

/-- What a callback writes that was started for the comment. -/
def CommentCell.labelled {Image : Type} (commentCell : CommentCell Image) (comment : Comment)
    (user : GUser) (image : Image) (age : String) (now : ℚ) : CommentCell Image :=
  { commentCell with
    userProfileImageView := some image
    userName := some user.name
    timeInterval := some (age, now)
    labelledFor := some (comment, now) }

inductive LoadStage (Image : Type) where
  | user
  | image (user : GUser)
  /-- The picture has arrived, and the block that shows it waits on the main queue. -/
  | display (user : GUser) (image : Image)

structure Load (Image : Type) where
  cell : Nat
  comment : Comment
  stage : LoadStage Image

structure CellPool (Image : Type) where
  commentData : List Comment
  cells : List (CommentCell Image)
  imageCache : List (String × Image) := []
  loads : List (Load Image) := []

namespace CellPool

inductive Action where
  | delivered (comments : List Comment)
  | cellForRowAt (cell row : Nat)
  | scrolledOff (cell : Nat)
  | userFetched (load : Nat) (now : ℚ)
  | imageLoaded (load : Nat)
  /-- A fetch or a download ends without calling back. -/
  | failed (load : Nat)
  | displayed (load : Nat) (now : ℚ)
  /-- Another screen has loaded the picture at the URL. -/
  | stored (url : String)
  | evicted (url : String)

variable {Image : Type}

def fresh (comments : List Comment) (count : Nat) : CellPool Image where
  commentData := comments
  cells := List.replicate count {}

def cached (s : CellPool Image) (url : String) : Option Image := s.imageCache.lookup url

def shown (s : CellPool Image) (cell : Nat) : Option Comment := (s.cells[cell]?).bind (·.comment)

def reused (s : CellPool Image) (cell : Nat) (comment : Comment) : CellPool Image :=
  { s with
    cells := s.cells.modify cell (·.reused comment)
    loads := s.loads ++ [⟨cell, comment, .user⟩] }

def scrolledOff (s : CellPool Image) (cell : Nat) : CellPool Image :=
  { s with cells := s.cells.modify cell fun commentCell => { commentCell with comment := none } }

/-- A callback that returns without a word to its cell. -/
def dropped (s : CellPool Image) (load : Nat) : CellPool Image :=
  { s with loads := s.loads.eraseIdx load }

def labelled (s : CellPool Image) (index : Nat) (load : Load Image) (user : GUser) (image : Image)
    (age : String) (now : ℚ) : CellPool Image :=
  { s with
    cells := s.cells.modify load.cell (·.labelled load.comment user image age now)
    loads := s.loads.eraseIdx index }

def advanced (s : CellPool Image) (index : Nat) (load : Load Image) (stage : LoadStage Image) :
    CellPool Image :=
  { s with loads := s.loads.set index { load with stage } }

section Step

variable (backend : Backend Image)

/-- Without a dictionary at the author's node nothing happens; a dictionary is cast. -/
def userFetched (s : CellPool Image) (index : Nat) (load : Load Image) (now : ℚ) :
    Option (CellPool Image) :=
  if InvitingMemberVC.isDictionary backend.db ["user", load.comment.userID] then
    (backend.author load.comment).bind fun user =>
      match s.cached user.profileImageURL with
      | some image => (CommentVC.getTimeDifferentWith backend.device now load.comment.time).map
          (s.labelled index load user image · now)
      | none =>
        if backend.isURL user.profileImageURL then some (s.advanced index load (.image user))
        else some (s.dropped index)
  else some (s.dropped index)

/-- The data of the download may be no picture. -/
def imageLoaded (s : CellPool Image) (index : Nat) (load : Load Image) (user : GUser) :
    CellPool Image :=
  match backend.picture user.profileImageURL with
  | none => s.dropped index
  | some image => { s.advanced index load (.display user image) with
      imageCache := (user.profileImageURL, image) :: s.imageCache }

def step (s : CellPool Image) : Action → Option (CellPool Image)
  | .delivered comments => some { s with commentData := comments }
  | .cellForRowAt cell row =>
    if cell < s.cells.length then (s.commentData[row]?).map (s.reused cell) else none
  | .scrolledOff cell => some (s.scrolledOff cell)
  | .userFetched index now => (s.loads[index]?).bind fun load =>
      match load.stage with
      | .user => s.userFetched backend index load now
      | _ => none
  | .imageLoaded index => (s.loads[index]?).bind fun load =>
      match load.stage with
      | .image user => some (s.imageLoaded backend index load user)
      | _ => none
  | .failed index => (s.loads[index]?).bind fun load =>
      match load.stage with
      | .display _ _ => none
      | _ => some (s.dropped index)
  | .displayed index now => (s.loads[index]?).bind fun load =>
      match load.stage with
      | .display user image =>
        (CommentVC.getTimeDifferentWith backend.device now load.comment.time).map
          (s.labelled index load user image · now)
      | _ => none
  | .stored url => (backend.picture url).map fun image =>
      { s with imageCache := (url, image) :: s.imageCache }
  | .evicted url => some { s with imageCache := s.imageCache.filter (·.1 ≠ url) }

/-- The load an action ends, and when it labels its cell, if it does. -/
def ended (s : CellPool Image) : Action → Option (Nat × Option ℚ)
  | .userFetched index now => (s.loads[index]?).bind fun load =>
      match backend.author load.comment with
      | none => some (index, none)
      | some user =>
        if (s.cached user.profileImageURL).isSome then some (index, some now)
        else if backend.isURL user.profileImageURL then none
        else some (index, none)
  | .imageLoaded index => (s.loads[index]?).bind fun load =>
      match load.stage with
      | .image user =>
        if (backend.picture user.profileImageURL).isSome then none else some (index, none)
      | _ => none
  | .failed index => some (index, none)
  | .displayed index now => some (index, some now)
  | _ => none

end Step

inductive Step (backend : Backend Image) (s : CellPool Image) : Action → CellPool Image → Prop
  | delivered (comments : List Comment) :
      Step backend s (.delivered comments) { s with commentData := comments }
  | cellForRowAt {cell row : Nat} {comment : Comment} : s.commentData[row]? = some comment →
      Step backend s (.cellForRowAt cell row) (s.reused cell comment)
  | scrolledOff (cell : Nat) : Step backend s (.scrolledOff cell) (s.scrolledOff cell)
  | dropped {a : Action} {index : Nat} {load : Load Image} : s.loads[index]? = some load →
      s.ended backend a = some (index, none) → Step backend s a (s.dropped index)
  | labelled {a : Action} {index : Nat} {load : Load Image} {user : GUser} {image : Image}
      {age : String} {now : ℚ} : s.loads[index]? = some load →
      s.ended backend a = some (index, some now) → load.stage = .display user image ∨
        backend.author load.comment = some user ∧ s.cached user.profileImageURL = some image →
      CommentVC.getTimeDifferentWith backend.device now load.comment.time = some age →
      Step backend s a (s.labelled index load user image age now)
  | awaitsImage {a : Action} {index : Nat} {load : Load Image} {user : GUser} :
      s.loads[index]? = some load → s.ended backend a = none →
      backend.author load.comment = some user →
      Step backend s a (s.advanced index load (.image user))
  | awaitsDisplay {a : Action} {index : Nat} {load : Load Image} {user : GUser} {image : Image} :
      s.loads[index]? = some load → s.ended backend a = none → load.stage = .image user →
      backend.picture user.profileImageURL = some image →
      Step backend s a { s.advanced index load (.display user image) with
        imageCache := (user.profileImageURL, image) :: s.imageCache }
  | stored {url : String} {image : Image} : backend.picture url = some image →
      Step backend s (.stored url) { s with imageCache := (url, image) :: s.imageCache }
  | evicted (url : String) :
      Step backend s (.evicted url) { s with imageCache := s.imageCache.filter (·.1 ≠ url) }

variable {backend : Backend Image} {s s' : CellPool Image} {a : Action}

theorem Step.of_userFetched {index : Nat} {load : Load Image} {now : ℚ}
    (hload : s.loads[index]? = some load)
    (h : s.userFetched backend index load now = some s') :
    Step backend s (.userFetched index now) s' := by
  unfold userFetched at h
  split at h
  · obtain ⟨user, huser, h⟩ := Option.bind_eq_some_iff.mp h
    cases hcached : s.cached user.profileImageURL with
    | some image =>
      simp only [hcached, Option.map_eq_some_iff] at h
      obtain ⟨age, hage, rfl⟩ := h
      exact .labelled hload (by simp [ended, hload, huser, hcached]) (.inr ⟨huser, hcached⟩) hage
    | none =>
      simp only [hcached] at h
      split at h
      · next hurl =>
        obtain rfl := Option.some.inj h
        exact .awaitsImage hload (by simp [ended, hload, huser, hcached, hurl]) huser
      · next hurl =>
        obtain rfl := Option.some.inj h
        exact .dropped hload (by simp [ended, hload, huser, hcached, hurl])
  · next hdictionary =>
    obtain rfl := Option.some.inj h
    have hnone : backend.author load.comment = none := by
      rw [Option.eq_none_iff_forall_ne_some]
      exact fun user huser => hdictionary (InvitingMemberVC.isDictionary_of_read huser)
    exact .dropped hload (by simp [ended, hload, hnone])

theorem Step.of_step (h : s.step backend a = some s') : Step backend s a s' := by
  cases a with
  | delivered comments =>
    obtain rfl := Option.some.inj h
    exact .delivered comments
  | cellForRowAt cell row =>
    simp only [step, Option.ite_none_right_eq_some, Option.map_eq_some_iff] at h
    obtain ⟨-, comment, hcomment, rfl⟩ := h
    exact .cellForRowAt hcomment
  | scrolledOff cell =>
    obtain rfl := Option.some.inj h
    exact .scrolledOff cell
  | userFetched index now =>
    obtain ⟨load, hload, h⟩ := Option.bind_eq_some_iff.mp h
    split at h
    · exact .of_userFetched hload h
    · cases h
  | imageLoaded index =>
    obtain ⟨load, hload, h⟩ := Option.bind_eq_some_iff.mp h
    split at h
    · next user hstage =>
      obtain rfl := Option.some.inj h
      unfold imageLoaded
      cases hpicture : backend.picture user.profileImageURL with
      | none => exact .dropped hload (by simp [ended, hload, hstage, hpicture])
      | some image =>
        exact .awaitsDisplay hload (by simp [ended, hload, hstage, hpicture]) hstage hpicture
    · cases h
  | failed index =>
    obtain ⟨load, hload, h⟩ := Option.bind_eq_some_iff.mp h
    split at h
    · cases h
    · obtain rfl := Option.some.inj h
      exact .dropped hload rfl
  | displayed index now =>
    obtain ⟨load, hload, h⟩ := Option.bind_eq_some_iff.mp h
    split at h
    · next hstage =>
      obtain ⟨age, hage, rfl⟩ := Option.map_eq_some_iff.mp h
      exact .labelled hload rfl (.inl hstage) hage
    · cases h
  | stored url =>
    obtain ⟨image, himage, rfl⟩ := Option.map_eq_some_iff.mp h
    exact .stored himage
  | evicted url =>
    obtain rfl := Option.some.inj h
    exact .evicted url

end CellPool

def Load.Right {Image : Type} (backend : Backend Image) (load : Load Image) : Prop :=
  match load.stage with
  | .user => True
  | .image user => backend.author load.comment = some user
  | .display user image =>
    backend.author load.comment = some user ∧ backend.picture user.profileImageURL = some image

/-- What the cell shows are its comment's words and the labels of one callback. -/
structure CommentCell.Right {Image : Type} (backend : Backend Image)
    (commentCell : CommentCell Image) : Prop where
  words : ∀ comment, commentCell.comment = some comment →
    commentCell.commentContent = some comment.content
  blank : commentCell.labelledFor = none → commentCell.userName = none ∧
    commentCell.timeInterval = none ∧ commentCell.userProfileImageView = none
  labels : ∀ source moment, commentCell.labelledFor = some (source, moment) →
    ∃ user age, backend.author source = some user ∧
      CommentVC.getTimeDifferentWith backend.device moment source.time = some age ∧
      commentCell.userName = some user.name ∧ commentCell.timeInterval = some (age, moment) ∧
      ∀ image, commentCell.userProfileImageView = some image →
        backend.picture user.profileImageURL = some image

namespace CellPool

variable {Image : Type}

structure Sound (backend : Backend Image) (s : CellPool Image) : Prop where
  imageCache : ∀ entry ∈ s.imageCache, backend.picture entry.1 = some entry.2
  loads : ∀ load ∈ s.loads, load.Right backend
  cells : ∀ commentCell ∈ s.cells, commentCell.Right backend

variable {backend : Backend Image} {s s' : CellPool Image} {a : Action}

theorem sound_fresh (comments : List Comment) (count : Nat) :
    Sound backend (fresh comments count) := by
  refine ⟨nofun, nofun, fun commentCell hcell => ?_⟩
  obtain rfl := List.eq_of_mem_replicate hcell
  exact ⟨nofun, fun _ => ⟨rfl, rfl, rfl⟩, nofun⟩

theorem Sound.picture_of_cached (hs : s.Sound backend) {url : String} {image : Image}
    (h : s.cached url = some image) : backend.picture url = some image := by
  obtain ⟨before, after, heq, -⟩ := List.lookup_eq_some_iff.mp h
  exact hs.imageCache (url, image) (by simp [heq])

theorem Sound.belongs (hs : s.Sound backend) {index : Nat} {load : Load Image} {user : GUser}
    {image : Image} (hload : s.loads[index]? = some load)
    (h : load.stage = .display user image ∨
      backend.author load.comment = some user ∧ s.cached user.profileImageURL = some image) :
    backend.author load.comment = some user ∧ backend.picture user.profileImageURL = some image := by
  rcases h with hstage | ⟨huser, hcached⟩
  · have hright := hs.loads load (List.mem_of_getElem? hload)
    unfold Load.Right at hright
    rwa [hstage] at hright
  · exact ⟨huser, hs.picture_of_cached hcached⟩

theorem right_modify (hs : s.Sound backend) {cell : Nat}
    {change : CommentCell Image → CommentCell Image}
    (hchange : ∀ commentCell, commentCell.Right backend → (change commentCell).Right backend) :
    ∀ commentCell ∈ s.cells.modify cell change, commentCell.Right backend := by
  intro commentCell hcell
  obtain ⟨i, hi⟩ := List.mem_iff_getElem?.mp hcell
  rw [List.getElem?_modify] at hi
  obtain ⟨before, hbefore, rfl⟩ := Option.map_eq_some_iff.mp hi
  have hright := hs.cells before (List.mem_of_getElem? hbefore)
  split
  · exact hchange before hright
  · exact hright

theorem right_set (hs : s.Sound backend) (index : Nat) {load : Load Image}
    (hload : load.Right backend) : ∀ other ∈ s.loads.set index load, other.Right backend := by
  intro other hother
  rcases List.mem_or_eq_of_mem_set hother with hother | rfl
  · exact hs.loads other hother
  · exact hload

theorem Sound.step (hs : s.Sound backend) (h : Step backend s a s') : s'.Sound backend := by
  cases h with
  | delivered comments => exact ⟨hs.imageCache, hs.loads, hs.cells⟩
  | @cellForRowAt cell row comment _ =>
    refine ⟨hs.imageCache, fun load hload => ?_, right_modify hs fun commentCell hright => ?_⟩
    · rcases List.mem_append.mp hload with hload | hload
      · exact hs.loads load hload
      · obtain rfl := List.mem_singleton.mp hload
        trivial
    · refine ⟨?_, fun hnone => ?_, fun source moment hlabelled => ?_⟩
      · intro shown hshown
        obtain rfl := Option.some.inj hshown
        rfl
      · obtain ⟨hname, hage, -⟩ := hright.blank hnone
        exact ⟨hname, hage, rfl⟩
      · obtain ⟨user, age, huser, hage, hname, htime, -⟩ := hright.labels source moment hlabelled
        exact ⟨user, age, huser, hage, hname, htime, nofun⟩
  | scrolledOff cell =>
    refine ⟨hs.imageCache, hs.loads, right_modify hs fun commentCell hright => ?_⟩
    exact ⟨nofun, hright.blank, hright.labels⟩
  | dropped _ _ =>
    exact ⟨hs.imageCache, fun load hload => hs.loads load (List.mem_of_mem_eraseIdx hload), hs.cells⟩
  | @labelled _ index load user image age now hload _ hfrom hage =>
    obtain ⟨huser, hpicture⟩ := hs.belongs hload hfrom
    refine ⟨hs.imageCache, fun load hload => hs.loads load (List.mem_of_mem_eraseIdx hload),
      right_modify hs fun commentCell hright => ⟨hright.words, nofun, ?_⟩⟩
    intro source moment hlabelled
    obtain ⟨rfl, rfl⟩ := Prod.mk.inj (Option.some.inj hlabelled)
    refine ⟨user, age, huser, hage, rfl, rfl, fun shown hshown => ?_⟩
    exact Option.some.inj hshown ▸ hpicture
  | @awaitsImage _ index load user hload _ huser =>
    exact ⟨hs.imageCache, right_set hs index huser, hs.cells⟩
  | @awaitsDisplay _ index load user image hload _ hstage hpicture =>
    have huser : backend.author load.comment = some user := by
      have hright := hs.loads load (List.mem_of_getElem? hload)
      unfold Load.Right at hright
      rwa [hstage] at hright
    refine ⟨fun entry hentry => ?_, right_set hs index ⟨huser, hpicture⟩, hs.cells⟩
    rcases List.mem_cons.mp hentry with rfl | hentry
    · exact hpicture
    · exact hs.imageCache entry hentry
  | stored himage =>
    refine ⟨fun entry hentry => ?_, hs.loads, hs.cells⟩
    rcases List.mem_cons.mp hentry with rfl | hentry
    · exact himage
    · exact hs.imageCache entry hentry
  | evicted url =>
    exact ⟨fun entry hentry => hs.imageCache entry (List.mem_filter.mp hentry).1, hs.loads, hs.cells⟩

end CellPool

end GetTogether
