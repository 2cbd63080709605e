import GetTogether.Comments.CellPool

/-! Whose name, picture and age a cell shows. While a load of its own is outstanding a
cell may show anything; what counts is that the last load to end leaves it right, either
by labelling it or because the labels it had are right for it too. -/
namespace GetTogether

open Realtime

namespace Backend

variable {Image : Type} (backend : Backend Image)

def name (comment : Comment) : Option String := (backend.author comment).map (·.name)

def photo (comment : Comment) : Option Image :=
  (backend.author comment).bind fun user => backend.picture user.profileImageURL

def age (moment : ℚ) (comment : Comment) : Option String :=
  CommentVC.getTimeDifferentWith backend.device moment comment.time

/-- Labels set for the first comment at that moment read as labels for the second would. -/
structure ReadsAs (moment : ℚ) (pictured : Bool) (source comment : Comment) : Prop where
  name : backend.name source = backend.name comment
  age : backend.age moment source = backend.age moment comment
  photo : pictured = true → backend.photo source = backend.photo comment

end Backend

/-- The cell shows the words of the comment, and of its author's name and picture and its
age when the label was set each the right one or none. -/
structure CommentCell.Fits {Image : Type} (backend : Backend Image)
    (commentCell : CommentCell Image) (comment : Comment) : Prop where
  words : commentCell.commentContent = some comment.content
  name : ∀ name, commentCell.userName = some name → backend.name comment = some name
  age : ∀ age moment, commentCell.timeInterval = some (age, moment) →
    backend.age moment comment = some age
  picture : ∀ image, commentCell.userProfileImageView = some image →
    backend.photo comment = some image

/-- A cell is right for its comment when the one it was labelled for reads the same. -/
theorem CommentCell.Right.fits_iff {Image : Type} {backend : Backend Image}
    {commentCell : CommentCell Image} {comment : Comment} (h : commentCell.Right backend)
    (hcomment : commentCell.comment = some comment) :
    commentCell.Fits backend comment ↔
      ∀ source moment, commentCell.labelledFor = some (source, moment) →
        backend.ReadsAs moment commentCell.userProfileImageView.isSome source comment := by
  cases hlabelled : commentCell.labelledFor with
  | none =>
    obtain ⟨hname, hage, hpicture⟩ := h.blank hlabelled
    refine iff_of_true ⟨h.words comment hcomment, ?_, ?_, ?_⟩ nofun
    · simp [hname]
    · simp [hage]
    · simp [hpicture]
  | some labels =>
    obtain ⟨source, moment⟩ := labels
    obtain ⟨user, age, huser, hage, hname, htime, hpicture⟩ := h.labels source moment hlabelled
    have hsource : backend.name source = some user.name := by simp [Backend.name, huser]
    have hphoto : backend.photo source = backend.picture user.profileImageURL := by
      simp [Backend.photo, huser]
    constructor
    · rintro hfits source' moment' hsame
      obtain ⟨rfl, rfl⟩ := Prod.mk.inj (Option.some.inj hsame)
      refine ⟨hsource.trans (hfits.name _ hname).symm, hage.trans (hfits.age _ _ htime).symm, ?_⟩
      intro hpictured
      obtain ⟨image, himage⟩ := Option.isSome_iff_exists.mp hpictured
      rw [hphoto, hpicture image himage, hfits.picture image himage]
    · intro hreads
      have hsame := hreads source moment rfl
      refine ⟨h.words comment hcomment, fun name hshown => ?_, fun text moment' hshown => ?_,
        fun image hshown => ?_⟩
      · obtain rfl := Option.some.inj (hname.symm.trans hshown)
        exact hsame.name ▸ hsource
      · obtain ⟨rfl, rfl⟩ := Prod.mk.inj (Option.some.inj (htime.symm.trans hshown))
        exact hsame.age ▸ hage
      · rw [← hsame.photo (by simp [hshown]), hphoto]
        exact hpicture image hshown

namespace CellPool

variable {Image : Type}

/-- Every cell on the screen shows the words of its comment, with the name, the picture and
the age of the author and the time of that comment, or none. -/
def ShowsOwnAuthors (backend : Backend Image) (s : CellPool Image) : Prop :=
  ∀ (cell : Nat) commentCell comment, s.cells[cell]? = some commentCell →
    commentCell.comment = some comment → commentCell.Fits backend comment

def Awaits (loads : List (Load Image)) (cell : Nat) (comment : Comment) : Prop :=
  ∃ load ∈ loads, load.cell = cell ∧ load.comment.userID = comment.userID ∧
    load.comment.time = comment.time

/-- Every cell on the screen is right or still awaits a load of its own. -/
def Settled (backend : Backend Image) (s : CellPool Image) : Prop :=
  ∀ (cell : Nat) commentCell comment, s.cells[cell]? = some commentCell →
    commentCell.comment = some comment →
      commentCell.Fits backend comment ∨ Awaits s.loads cell comment

theorem Settled.showsOwnAuthors {backend : Backend Image} {s : CellPool Image}
    (hs : s.Settled backend) (hloads : s.loads = []) : s.ShowsOwnAuthors backend := by
  intro cell commentCell comment hcell hcomment
  rcases hs cell commentCell comment hcell hcomment with h | ⟨load, hload, -⟩
  · exact h
  · rw [hloads] at hload
    exact absurd hload List.not_mem_nil

theorem settled_fresh (backend : Backend Image) (comments : List Comment) (count : Nat) :
    Settled backend (fresh comments count) := by
  intro cell commentCell comment hcell hcomment
  have hfresh : commentCell = {} := List.eq_of_mem_replicate (List.mem_of_getElem? hcell)
  rw [hfresh] at hcomment
  cases hcomment

/-- The comment the labels of the cell are from once the load has ended reads as the
comment of the cell: the one the load was started for, or, where the load sets no labels,
the one they are from already. -/
def LeavesRight (backend : Backend Image) (load : Load Image) (commentCell : CommentCell Image)
    (comment : Comment) : Option ℚ → Prop
  | some now => backend.ReadsAs now true load.comment comment
  | none => ∀ source moment, commentCell.labelledFor = some (source, moment) →
    backend.ReadsAs moment commentCell.userProfileImageView.isSome source comment

/-- A load that ends leaves its cell right, if the cell is on the screen, or another load
for its comment is outstanding. -/
def EndsWell (backend : Backend Image) (s : CellPool Image) (a : Action) : Prop :=
  ∀ index writes load commentCell comment, s.ended backend a = some (index, writes) →
    s.loads[index]? = some load → s.cells[load.cell]? = some commentCell →
    commentCell.comment = some comment →
      LeavesRight backend load commentCell comment writes ∨
        Awaits (s.loads.eraseIdx index) load.cell comment

section Ended

variable {backend : Backend Image} {s s' : CellPool Image} {index : Nat} {load : Load Image}

theorem Awaits.eraseIdx (hload : s.loads[index]? = some load) {cell : Nat} {comment : Comment}
    (hcell : cell ≠ load.cell) (h : Awaits s.loads cell comment) :
    Awaits (s.loads.eraseIdx index) cell comment := by
  obtain ⟨other, hother, rfl, hsame⟩ := h
  obtain ⟨i, hi⟩ := List.mem_iff_getElem?.mp hother
  have hne : i ≠ index := by
    intro hindex
    rw [hindex, hload] at hi
    exact hcell (congrArg Load.cell (Option.some.inj hi)).symm
  exact ⟨other, List.mem_eraseIdx_iff_getElem?.mpr ⟨i, hne, hi⟩, rfl, hsame⟩

/-- After a load has ended only its own cell is in question. -/
theorem settled_ended_iff (hs : s.Settled backend) (hload : s.loads[index]? = some load)
    (hloads : s'.loads = s.loads.eraseIdx index)
    (hcells : ∀ cell, cell ≠ load.cell → s'.cells[cell]? = s.cells[cell]?) :
    s'.Settled backend ↔ ∀ commentCell comment, s'.cells[load.cell]? = some commentCell →
      commentCell.comment = some comment →
        commentCell.Fits backend comment ∨ Awaits (s.loads.eraseIdx index) load.cell comment := by
  unfold Settled
  rw [hloads]
  constructor
  · intro h commentCell comment
    exact h load.cell commentCell comment
  · intro h cell commentCell comment hcell hcomment
    by_cases hsame : cell = load.cell
    · rw [hsame] at hcell ⊢
      exact h commentCell comment hcell hcomment
    · rw [hcells cell hsame] at hcell
      rcases hs cell commentCell comment hcell hcomment with hfits | hawaits
      · exact .inl hfits
      · exact .inr (hawaits.eraseIdx hload hsame)

end Ended

section Kept

variable {backend : Backend Image} {s : CellPool Image}

theorem Settled.reused (hs : s.Settled backend) (cell : Nat) (comment : Comment) :
    (s.reused cell comment).Settled backend := by
  intro other commentCell shown hcell hshown
  unfold CellPool.reused at hcell
  rw [List.getElem?_modify] at hcell
  obtain ⟨before, hbefore, rfl⟩ := Option.map_eq_some_iff.mp hcell
  by_cases hsame : cell = other
  · rw [if_pos hsame] at hshown
    obtain rfl := Option.some.inj hshown
    exact .inr ⟨⟨cell, comment, .user⟩, List.mem_append_right _ (List.mem_singleton_self _), hsame,
      rfl, rfl⟩
  · rw [if_neg hsame] at hshown ⊢
    rcases hs other before shown hbefore hshown with hfits | ⟨load, hload, hawaits⟩
    · exact .inl hfits
    · exact .inr ⟨load, List.mem_append_left _ hload, hawaits⟩

theorem Settled.scrolledOff (hs : s.Settled backend) (cell : Nat) :
    (s.scrolledOff cell).Settled backend := by
  intro other commentCell shown hcell hshown
  unfold CellPool.scrolledOff at hcell
  rw [List.getElem?_modify] at hcell
  obtain ⟨before, hbefore, rfl⟩ := Option.map_eq_some_iff.mp hcell
  by_cases hsame : cell = other
  · rw [if_pos hsame] at hshown
    cases hshown
  · rw [if_neg hsame] at hshown ⊢
    exact hs other before shown hbefore hshown

theorem Settled.advanced (hs : s.Settled backend) {index : Nat} {load : Load Image}
    (hload : s.loads[index]? = some load) (stage : LoadStage Image) :
    (s.advanced index load stage).Settled backend := by
  intro cell commentCell comment hcell hcomment
  rcases hs cell commentCell comment hcell hcomment with hfits | ⟨other, hother, hawaits⟩
  · exact .inl hfits
  · obtain ⟨i, hi⟩ := List.mem_iff_getElem?.mp hother
    have hlt := (List.getElem?_eq_some_iff.mp hload).1
    by_cases hsame : index = i
    · have hload' : load = other := Option.some.inj (hload.symm.trans (hsame ▸ hi))
      refine .inr ⟨{ load with stage := stage }, List.mem_iff_getElem?.mpr ⟨index, ?_⟩, ?_⟩
      · simp [CellPool.advanced, hlt]
      · rw [hload']
        exact hawaits
    · refine .inr ⟨other, List.mem_iff_getElem?.mpr ⟨i, ?_⟩, hawaits⟩
      rw [← hi]
      exact List.getElem?_set_ne hsame

end Kept

variable {backend : Backend Image} {s s' : CellPool Image} {a : Action}

theorem endsWell_of_ended_eq_none (h : s.ended backend a = none) : s.EndsWell backend a := by
  intro index writes load commentCell comment hended
  rw [h] at hended
  cases hended

theorem endsWell_iff {index : Nat} {writes : Option ℚ} {load : Load Image}
    (hended : s.ended backend a = some (index, writes)) (hload : s.loads[index]? = some load) :
    s.EndsWell backend a ↔ ∀ commentCell comment, s.cells[load.cell]? = some commentCell →
      commentCell.comment = some comment →
        LeavesRight backend load commentCell comment writes ∨
          Awaits (s.loads.eraseIdx index) load.cell comment := by
  constructor
  · intro h commentCell comment
    exact h index writes load commentCell comment hended hload
  · intro h index' writes' load' commentCell comment hended' hload'
    rw [hended, Option.some.injEq, Prod.mk.injEq] at hended'
    obtain ⟨rfl, rfl⟩ := hended'
    obtain rfl := Option.some.inj (hload.symm.trans hload')
    exact h commentCell comment

theorem settled_dropped_iff (hsound : s.Sound backend) (hs : s.Settled backend) {index : Nat}
    {load : Load Image} (hload : s.loads[index]? = some load) :
    (s.dropped index).Settled backend ↔
      ∀ commentCell comment, s.cells[load.cell]? = some commentCell →
        commentCell.comment = some comment →
          LeavesRight backend load commentCell comment none ∨
            Awaits (s.loads.eraseIdx index) load.cell comment := by
  have hended : (s.dropped index).Settled backend ↔ _ :=
    settled_ended_iff hs hload rfl fun _ _ => rfl
  rw [hended]
  refine forall₄_congr fun commentCell comment hcell hcomment => or_congr_left ?_
  exact (hsound.cells commentCell (List.mem_of_getElem? hcell)).fits_iff hcomment

theorem settled_labelled_iff (hsound : s'.Sound backend) (hs : s.Settled backend) {index : Nat}
    {load : Load Image} (hload : s.loads[index]? = some load) {user : GUser} {image : Image}
    {age : String} {now : ℚ} (hs' : s' = s.labelled index load user image age now) :
    s'.Settled backend ↔ ∀ commentCell comment, s.cells[load.cell]? = some commentCell →
      commentCell.comment = some comment →
        LeavesRight backend load commentCell comment (some now) ∨
          Awaits (s.loads.eraseIdx index) load.cell comment := by
  have hcell : ∀ cell, s'.cells[cell]? = if load.cell = cell then
      (s.cells[cell]?).map (·.labelled load.comment user image age now) else s.cells[cell]? := by
    intro cell
    rw [hs', CellPool.labelled, List.getElem?_modify]
    split <;> simp
  have hfits : ∀ commentCell comment, s.cells[load.cell]? = some commentCell →
      commentCell.comment = some comment →
      ((commentCell.labelled load.comment user image age now).Fits backend comment ↔
        backend.ReadsAs now true load.comment comment) := by
    intro commentCell comment hbefore hcomment
    have hafter := (hcell load.cell).trans (if_pos rfl)
    rw [hbefore, Option.map_some] at hafter
    rw [(hsound.cells _ (List.mem_of_getElem? hafter)).fits_iff hcomment]
    constructor
    · intro h
      exact h load.comment now rfl
    · intro h source moment hlabelled
      obtain ⟨rfl, rfl⟩ := Prod.mk.inj (Option.some.inj hlabelled)
      exact h
  rw [settled_ended_iff hs hload (by rw [hs']; rfl)
    fun cell hne => (hcell cell).trans (if_neg (Ne.symm hne)), hcell, if_pos rfl]
  constructor
  · intro h commentCell comment hbefore hcomment
    have hafter := h _ comment (Option.map_eq_some_iff.mpr ⟨commentCell, hbefore, rfl⟩) hcomment
    rwa [hfits commentCell comment hbefore hcomment] at hafter
  · intro h labelled comment hlabelled hcomment
    obtain ⟨commentCell, hbefore, rfl⟩ := Option.map_eq_some_iff.mp hlabelled
    rw [hfits commentCell comment hbefore hcomment]
    exact h commentCell comment hbefore hcomment

theorem Step.settled_iff (h : Step backend s a s') (hsound : s.Sound backend)
    (hs : s.Settled backend) : s'.Settled backend ↔ s.EndsWell backend a := by
  have hsound' := hsound.step h
  cases h with
  | delivered comments => exact iff_of_true hs (endsWell_of_ended_eq_none rfl)
  | @cellForRowAt cell row comment _ =>
    exact iff_of_true (hs.reused cell comment) (endsWell_of_ended_eq_none rfl)
  | scrolledOff cell => exact iff_of_true (hs.scrolledOff cell) (endsWell_of_ended_eq_none rfl)
  | dropped hload hended =>
    rw [settled_dropped_iff hsound hs hload, endsWell_iff hended hload]
  | labelled hload hended _ _ =>
    rw [settled_labelled_iff hsound' hs hload rfl, endsWell_iff hended hload]
  | awaitsImage hload hended _ =>
    exact iff_of_true (hs.advanced hload _) (endsWell_of_ended_eq_none hended)
  | awaitsDisplay hload hended _ _ =>
    exact iff_of_true (hs.advanced hload _) (endsWell_of_ended_eq_none hended)
  | stored _ => exact iff_of_true hs (endsWell_of_ended_eq_none rfl)
  | evicted url => exact iff_of_true hs (endsWell_of_ended_eq_none rfl)

/-- All cells stay settled exactly when every load ends well; then, once no load is
outstanding, every cell on the screen shows its own author's name and picture and the age
of its own comment, or none. -/
theorem own_authors_of_loads_ending_well (backend : Backend Image) (comments : List Comment)
    (count : Nat) (run : List Action) :
    (Always (step backend) (Settled backend) (fresh comments count) run ↔
      EachStep (step backend) (EndsWell backend) (fresh comments count) run) ∧
    (EachStep (step backend) (EndsWell backend) (fresh comments count) run →
      ∀ final, exec (step backend) (fresh comments count) run = some final →
        final.loads = [] → final.ShowsOwnAuthors backend) := by
  have hexact : Always (step backend) (Settled backend) (fresh comments count) run ↔
      EachStep (step backend) (EndsWell backend) (fresh comments count) run := by
    apply always_iff_eachStep (Sound backend)
    · intro s a s' hsound hs hstep
      exact (Step.of_step hstep).settled_iff hsound hs
    · intro s a s' hsound _ _ hstep
      exact hsound.step (.of_step hstep)
    · exact sound_fresh comments count
    · exact settled_fresh backend comments count
  refine ⟨hexact, ?_⟩
  intro hends final hrun hloads
  exact ((hexact.mpr hends).final hrun).showsOwnAuthors hloads

def bobsComment : Comment := ⟨"k", "c", "bob", "Hello", "2018-12-24 18:00:00"⟩

def carolsComment : Comment := ⟨"k", "d", "carol", "Hi", "2018-12-24 18:05:00"⟩

def bobAndCarol : Backend Nat where
  db := Store.empty.applyAll
    [.setValue ["user", "bob"] (GUser.uploadedUserData ⟨"bob", "bob@mail", "Bob", "bob.jpg"⟩),
      .setValue ["user", "carol"]
        (GUser.uploadedUserData ⟨"carol", "carol@mail", "Carol", "carol.jpg"⟩)]
  isURL _ := true
  picture url := if url = "bob.jpg" then some 1 else if url = "carol.jpg" then some 2 else none
  device := .taipei

/-- The one cell is scrolled from Bob's comment to Carol's, and Bob's picture takes longer. -/
def fastScroll : List Action :=
  [.cellForRowAt 0 0, .scrolledOff 0, .cellForRowAt 0 1, .userFetched 1 1545645960,
    .userFetched 0 1545645960, .imageLoaded 1, .displayed 1 1545645961, .imageLoaded 0,
    .displayed 0 1545645962]

/-- Carol's words appear under Bob's name, with nothing left to correct it. -/
theorem stale_author : ∃ final,
    exec (step bobAndCarol) (fresh [bobsComment, carolsComment] 1) fastScroll = some final ∧
      final.loads = [] ∧ ¬final.ShowsOwnAuthors bobAndCarol := by
  have hrun : ((exec (step bobAndCarol) (fresh [bobsComment, carolsComment] 1)
      fastScroll).any fun s => s.loads.isEmpty ∧ s.shown 0 = some carolsComment ∧
        (s.cells[0]?).bind (·.userName) = some "Bob") = true := by
    decide +kernel
  have hname : bobAndCarol.name carolsComment = some "Carol" := by decide +kernel
  obtain ⟨final, hfinal, hwrong⟩ := (Option.any_eq_true _ _).mp hrun
  obtain ⟨hloads, hshown, hbob⟩ := of_decide_eq_true hwrong
  refine ⟨final, hfinal, List.isEmpty_iff.mp hloads, fun h => ?_⟩
  obtain ⟨commentCell, hcell, hcomment⟩ := Option.bind_eq_some_iff.mp hshown
  rw [hcell, Option.bind_some] at hbob
  have hauthor := (h 0 commentCell carolsComment hcell hcomment).name "Bob" hbob
  rw [hname] at hauthor
  exact absurd hauthor (by decide)

end CellPool

end GetTogether
