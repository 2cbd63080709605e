import GetTogether.Realtime.Run

/-! The pictures of the rows. All screens share one cache; a row whose picture is not in it
starts a download, whose completion writes to the image view it was started for, whatever
row that shows by then. The cells of the comment screen are in a module of their own. -/
namespace GetTogether

open Realtime

/-- The image views that look into the cache before they download. The form, the
notifications and the profile download without looking. -/
inductive Site where
  | myEventCell
  | organiserProfileImage
  | memberCell
  | invitingMemberCell
  | searchMemberCell
  deriving DecidableEq, Repr

/-- What an image view shows; a picture is known by the URL it was loaded from. -/
inductive Picture (Image : Type) where
  | blank
  | profileImage
  | loaded (url : String) (image : Image)
  deriving DecidableEq, Repr

namespace Site

variable {Image : Type}

/-- What is put into the view before its picture is looked for. -/
def prepared (old : Picture Image) : Site → Picture Image
  | .myEventCell => .blank
  | .organiserProfileImage => old
  | .memberCell => .blank
  | .invitingMemberCell => .profileImage
  | .searchMemberCell => .profileImage

/-- Whether the completion leaves the picture to a block on the main queue. -/
def dispatches : Site → Bool
  | .searchMemberCell => false
  | _ => true

end Site

structure ImageView (Image : Type) where
  site : Site
  /-- The picture that belongs to the row the view is used for. -/
  url : Option String := none
  picture : Picture Image := .blank
  deriving DecidableEq, Repr

structure Download where
  view : Nat
  url : String
  deriving DecidableEq, Repr

structure ImageCache (Image : Type) where
  imageCache : List (String × Image) := []
  views : List (ImageView Image)
  downloads : List Download := []
  /-- The blocks on the main queue, which run in turn. -/
  blocks : List (Download × Image) := []

namespace ImageCache

inductive Action (Image : Type) where
  | cellForRowAt (view : Nat) (url : String)
  | downloaded (download : Nat) (image : Option Image)
  | displayed
  | evicted (url : String)

variable {Image : Type}

def start (sites : List Site) : ImageCache Image where
  views := sites.map fun site => { site }

def cached (s : ImageCache Image) (url : String) : Option Image := s.imageCache.lookup url

def put (s : ImageCache Image) (view : Nat) (picture : Picture Image) : ImageCache Image :=
  { s with views := s.views.modify view fun v => { v with picture } }

def reused (s : ImageCache Image) (view : Nat) (url : String) : ImageCache Image :=
  { s with views := s.views.modify view fun v =>
      { v with url := some url, picture := v.site.prepared v.picture } }

/-- A URL that does not parse is dropped without a word. -/
def getImage (s : ImageCache Image) (isURL : String → Bool) (view : Nat) (url : String) :
    ImageCache Image :=
  if isURL url then { s with downloads := s.downloads ++ [⟨view, url⟩] } else s

def cellForRowAt (s : ImageCache Image) (isURL : String → Bool) (view : Nat) (url : String) :
    ImageCache Image :=
  match s.cached url with
  | some image => (s.reused view url).put view (.loaded url image)
  | none => (s.reused view url).getImage isURL view url

/-- The image goes into the cache, and to the view at once or through the main queue. -/
def completed (s : ImageCache Image) (v : ImageView Image) (download : Download) (image : Image) :
    ImageCache Image :=
  let stored := { s with imageCache := (download.url, image) :: s.imageCache }
  if v.site.dispatches then { stored with blocks := s.blocks ++ [(download, image)] }
  else stored.put download.view (.loaded download.url image)

def step (isURL : String → Bool) (s : ImageCache Image) : Action Image → Option (ImageCache Image)
  | .cellForRowAt view url =>
    if view < s.views.length then some (s.cellForRowAt isURL view url) else none
  | .downloaded index image => do
    let download ← s.downloads[index]?
    let v ← s.views[download.view]?
    let rest := { s with downloads := s.downloads.eraseIdx index }
    return image.elim rest (rest.completed v download)
  | .displayed => match s.blocks with
    | [] => none
    | (download, image) :: blocks =>
      some ({ s with blocks }.put download.view (.loaded download.url image))
  | .evicted url => some { s with imageCache := s.imageCache.filter (·.1 ≠ url) }

/-- Only what was started before comes back; no row is put anywhere. -/
def isCallback : Action Image → Bool
  | .downloaded _ _ => true
  | .displayed => true
  | _ => false

def callback (isURL : String → Bool) (s : ImageCache Image) (a : Action Image) :
    Option (ImageCache Image) :=
  if isCallback a then s.step isURL a else none

/-- Every picture is that of the row its view is used for. -/
def ShowsOwn (s : ImageCache Image) : Prop :=
  ∀ (view : Nat) v url image, s.views[view]? = some v → v.picture = .loaded url image →
    v.url = some url

/-- The download has not come back, or its picture waits to be shown. -/
def Outstanding (s : ImageCache Image) (download : Download) : Prop :=
  download ∈ s.downloads ∨ ∃ image, (download, image) ∈ s.blocks

/-- The row the download was started for is still the one in its view. -/
def Current (s : ImageCache Image) (download : Download) : Prop :=
  ∀ v, s.views[download.view]? = some v → v.url = some download.url

inductive Step (isURL : String → Bool) (s : ImageCache Image) : Action Image → ImageCache Image → Prop
  | hit {view url image} (hview : view < s.views.length) (hcached : s.cached url = some image) :
      Step isURL s (.cellForRowAt view url) ((s.reused view url).put view (.loaded url image))
  | miss {view url} (hview : view < s.views.length) (hcached : s.cached url = none) :
      Step isURL s (.cellForRowAt view url) ((s.reused view url).getImage isURL view url)
  | failed {index download} (hdownload : s.downloads[index]? = some download) :
      Step isURL s (.downloaded index none) { s with downloads := s.downloads.eraseIdx index }
  | completed {index download v image} (hdownload : s.downloads[index]? = some download)
      (hview : s.views[download.view]? = some v) : Step isURL s (.downloaded index (some image))
        (({ s with downloads := s.downloads.eraseIdx index } : ImageCache Image).completed v
          download image)
  | displayed {download image blocks} (hblocks : s.blocks = (download, image) :: blocks) :
      Step isURL s .displayed
        (({ s with blocks } : ImageCache Image).put download.view (.loaded download.url image))
  | evicted {url} :
      Step isURL s (.evicted url) { s with imageCache := s.imageCache.filter (·.1 ≠ url) }

variable {isURL : String → Bool} {s s' : ImageCache Image} {a : Action Image}

theorem Step.of_step (h : s.step isURL a = some s') : Step isURL s a s' := by
  cases a with
  | cellForRowAt view url =>
    simp only [step, Option.ite_none_right_eq_some, Option.some.injEq] at h
    obtain ⟨hview, rfl⟩ := h
    unfold cellForRowAt
    cases hcached : s.cached url with
    | none => exact .miss hview hcached
    | some image => exact .hit hview hcached
  | downloaded index image =>
    simp only [step, Option.bind_eq_bind, Option.bind_eq_some_iff, Option.pure_def,
      Option.some.injEq] at h
    obtain ⟨download, hdownload, v, hview, rfl⟩ := h
    cases image with
    | none => exact .failed hdownload
    | some image => exact .completed hdownload hview
  | displayed =>
    unfold step at h
    cases hblocks : s.blocks with
    | nil => simp [hblocks] at h
    | cons block blocks =>
      simp only [hblocks, Option.some.injEq] at h
      exact h ▸ .displayed hblocks
  | evicted url =>
    obtain rfl := Option.some.inj h
    exact .evicted

@[simp] theorem getElem?_put (s : ImageCache Image) (view i : Nat) (picture : Picture Image) :
    (s.put view picture).views[i]? =
      if view = i then (s.views[i]?).map fun v => { v with picture } else s.views[i]? := by
  simp only [put, List.getElem?_modify]
  split <;> cases s.views[i]? <;> simp

@[simp] theorem getElem?_reused (s : ImageCache Image) (view i : Nat) (url : String) :
    (s.reused view url).views[i]? = if view = i then (s.views[i]?).map fun v =>
      { v with url := some url, picture := v.site.prepared v.picture } else s.views[i]? := by
  simp only [reused, List.getElem?_modify]
  split <;> cases s.views[i]? <;> simp

/-- What the callbacks keep while every download is for the row in its view. -/
structure Proper (s : ImageCache Image) : Prop where
  shows : s.ShowsOwn
  current : ∀ download, s.Outstanding download → s.Current download

theorem ShowsOwn.put (h : s.ShowsOwn) {download : Download} (hcurrent : s.Current download)
    (image : Image) : (s.put download.view (.loaded download.url image)).ShowsOwn := by
  intro view v url found hview hpicture
  rw [getElem?_put] at hview
  split at hview
  · next hsame =>
    obtain ⟨before, hbefore, rfl⟩ := Option.map_eq_some_iff.mp hview
    obtain ⟨rfl, rfl⟩ := Picture.loaded.inj hpicture
    exact hcurrent before (hsame ▸ hbefore)
  · exact h view v url found hview hpicture

theorem Current.put {download : Download} (h : s.Current download) (view : Nat)
    (picture : Picture Image) : (s.put view picture).Current download := by
  intro v hview
  rw [getElem?_put] at hview
  split at hview
  · obtain ⟨before, hbefore, rfl⟩ := Option.map_eq_some_iff.mp hview
    exact h before hbefore
  · exact h v hview

theorem Proper.step (h : s.Proper) (ha : isCallback a = true) (hstep : Step isURL s a s') :
    s'.Proper := by
  cases hstep with
  | hit _ _ => cases ha
  | miss _ _ => cases ha
  | evicted => cases ha
  | failed hdownload =>
    refine ⟨h.shows, fun other hother => h.current other ?_⟩
    exact hother.imp_left List.mem_of_mem_eraseIdx
  | @completed index download v image hdownload hview =>
    have hcurrent := h.current download (.inl (List.mem_of_getElem? hdownload))
    have hkept : ∀ other, (other ∈ s.downloads.eraseIdx index ∨
        ∃ image, (other, image) ∈ s.blocks) → s.Current other :=
      fun other hother => h.current other (hother.imp_left List.mem_of_mem_eraseIdx)
    unfold completed
    split
    · refine ⟨h.shows, fun other hother => ?_⟩
      rcases hother with hother | ⟨found, hother⟩
      · exact hkept other (.inl hother)
      · rcases List.mem_append.mp hother with hother | hother
        · exact hkept other (.inr ⟨found, hother⟩)
        · obtain rfl := (Prod.mk.inj (List.mem_singleton.mp hother)).1
          exact hcurrent
    · exact ⟨h.shows.put hcurrent image, fun other hother => (hkept other hother).put _ _⟩
  | @displayed download image blocks hblocks =>
    have hcurrent := h.current download (.inr ⟨image, by simp [hblocks]⟩)
    refine ⟨h.shows.put hcurrent image, fun other hother => (h.current other ?_).put _ _⟩
    refine hother.imp_right fun hblock => ?_
    obtain ⟨found, hblock⟩ := hblock
    exact ⟨found, hblocks ▸ List.mem_cons_of_mem _ hblock⟩

theorem proper_of_callbacks (h : s.Proper) (hrun : Reachable (callback isURL) s s') : s'.Proper := by
  refine hrun.invariant Proper h ?_
  intro s a s' hs hstep
  rw [callback, Option.ite_none_right_eq_some] at hstep
  exact hs.step hstep.1 (.of_step hstep.2)

/-- Some view shows the picture, but is used for the row of another one. -/
def Wrong (s : ImageCache Image) (view : Nat) (url : String) (image : Image) : Prop :=
  ∃ v, s.views[view]? = some v ∧ v.picture = .loaded url image ∧ v.url ≠ some url

theorem Wrong.not_showsOwn {view : Nat} {url : String} {image : Image} (h : s.Wrong view url image) :
    ¬s.ShowsOwn := by
  obtain ⟨v, hview, hpicture, hne⟩ := h
  exact fun hshows => hne (hshows view v url image hview hpicture)

theorem wrong_of_block (isURL : String → Bool) {blocks : List (Download × Image)} {download : Download} {image : Image}
    {v : ImageView Image} (hblocks : s.blocks = blocks) (hblock : (download, image) ∈ blocks)
    (hview : s.views[download.view]? = some v) (hne : v.url ≠ some download.url) :
    ∃ s', Reachable (callback isURL) s s' ∧ s'.Wrong download.view download.url image := by
  induction blocks generalizing s v with
  | nil => exact absurd hblock List.not_mem_nil
  | cons block rest ih =>
    let next := ({ s with blocks := rest } : ImageCache Image).put block.1.view
      (.loaded block.1.url block.2)
    have hstep : callback isURL s .displayed = some next := by
      simp [callback, isCallback, step, hblocks, next]
    have hreach : Reachable (callback isURL) s next := (Reachable.refl s).tail hstep
    rcases List.mem_cons.mp hblock with rfl | hblock
    · refine ⟨next, hreach, { v with picture := .loaded download.url image }, ?_, rfl, hne⟩
      simp only [next, getElem?_put, if_true]
      exact congrArg (Option.map _) hview
    · obtain ⟨v', hview', hurl⟩ : ∃ v', next.views[download.view]? = some v' ∧ v'.url = v.url := by
        simp only [next, getElem?_put, hview]
        split <;> exact ⟨_, rfl, rfl⟩
      obtain ⟨s', hreach', hwrong⟩ := ih rfl hblock hview' (hurl ▸ hne)
      exact ⟨s', hreach.trans hreach', hwrong⟩

/-- A download for a row that has been replaced can still put its picture there. -/
theorem wrong_of_outstanding [Inhabited Image] (isURL : String → Bool) {download : Download}
    (houtstanding : s.Outstanding download) (hcurrent : ¬s.Current download) :
    ∃ s' image, Reachable (callback isURL) s s' ∧ s'.Wrong download.view download.url image := by
  obtain ⟨v, hview, hne⟩ : ∃ v, s.views[download.view]? = some v ∧ v.url ≠ some download.url := by
    simpa [Current] using hcurrent
  rcases houtstanding with hdownload | ⟨image, hblock⟩
  · obtain ⟨index, hindex⟩ := List.mem_iff_getElem?.mp hdownload
    let rest : ImageCache Image := { s with downloads := s.downloads.eraseIdx index }
    have hstep : callback isURL s (.downloaded index (some default)) =
        some (rest.completed v download default) := by
      simp [callback, isCallback, step, hindex, hview, rest]
    have hreach : Reachable (callback isURL) s (rest.completed v download default) :=
      (Reachable.refl s).tail hstep
    unfold completed at hreach
    split at hreach
    · have hblock : (download, default) ∈ s.blocks ++ [(download, default)] :=
        List.mem_append_right _ (List.mem_singleton_self _)
      let next : ImageCache Image := { rest with
        imageCache := (download.url, default) :: s.imageCache
        blocks := s.blocks ++ [(download, default)] }
      obtain ⟨s', hreach', hwrong⟩ := wrong_of_block isURL (s := next) rfl hblock hview hne
      exact ⟨s', default, hreach.trans hreach', hwrong⟩
    · refine ⟨_, default, hreach, { v with picture := .loaded download.url default }, ?_, rfl, hne⟩
      rw [getElem?_put, if_pos rfl]
      exact congrArg (Option.map _) hview
  · obtain ⟨s', hreach, hwrong⟩ := wrong_of_block isURL rfl hblock hview hne
    exact ⟨s', image, hreach, hwrong⟩

/-- Whatever comes back in whatever order, every view shows its own row's picture or none,
exactly when this is so now and every outstanding download is for the row in its view. -/
theorem shows_own_iff [Inhabited Image] (isURL : String → Bool) (s : ImageCache Image) :
    (∀ s', Reachable (callback isURL) s s' → s'.ShowsOwn) ↔
      s.ShowsOwn ∧ ∀ download, s.Outstanding download → s.Current download := by
  constructor
  · intro h
    refine ⟨h s (.refl s), fun download houtstanding => ?_⟩
    apply Classical.byContradiction
    intro hcurrent
    obtain ⟨s', image, hreach, hwrong⟩ := wrong_of_outstanding isURL houtstanding hcurrent
    exact hwrong.not_showsOwn (h s' hreach)
  · intro h s' hreach
    exact (proper_of_callbacks ⟨h.1, h.2⟩ hreach).shows

def receive (received : List (String × Image)) (s : ImageCache Image) :
    Action Image → List (String × Image)
  | .downloaded index image =>
    ((s.downloads[index]?).bind fun download => image.map (download.url, ·)).toList ++ received
  | _ => received

structure Received (received : List (String × Image)) (s : ImageCache Image) : Prop where
  imageCache : ∀ entry ∈ s.imageCache, entry ∈ received
  blocks : ∀ block ∈ s.blocks, (block.1.url, block.2) ∈ received
  views : ∀ (view : Nat) v url image, s.views[view]? = some v → v.picture = .loaded url image →
    (url, image) ∈ received

theorem mem_of_cached {url : String} {image : Image} (h : s.cached url = some image) :
    (url, image) ∈ s.imageCache := by
  obtain ⟨before, after, heq, -⟩ := List.lookup_eq_some_iff.mp h
  simp [heq]

section Received

variable {received : List (String × Image)}

theorem Received.put (h : Received received s) (view : Nat) {url : String} {image : Image}
    (hreceived : (url, image) ∈ received) : Received received (s.put view (.loaded url image)) := by
  refine ⟨h.imageCache, h.blocks, fun i v url' image' hview hpicture => ?_⟩
  rw [getElem?_put] at hview
  split at hview
  · obtain ⟨before, -, rfl⟩ := Option.map_eq_some_iff.mp hview
    obtain ⟨rfl, rfl⟩ := Picture.loaded.inj hpicture
    exact hreceived
  · exact h.views i v url' image' hview hpicture

theorem Received.reused (h : Received received s) (view : Nat) (url : String) :
    Received received (s.reused view url) := by
  refine ⟨h.imageCache, h.blocks, fun i v url' image' hview hpicture => ?_⟩
  rw [getElem?_reused] at hview
  split at hview
  · obtain ⟨before, hbefore, rfl⟩ := Option.map_eq_some_iff.mp hview
    cases hsite : before.site with
    | organiserProfileImage =>
      rw [hsite] at hpicture
      exact h.views i before url' image' hbefore hpicture
    | _ => simp [hsite, Site.prepared] at hpicture
  · exact h.views i v url' image' hview hpicture

theorem Received.step (h : Received received s) (hstep : Step isURL s a s') :
    Received (receive received s a) s' := by
  cases hstep with
  | hit _ hcached => exact (h.reused _ _).put _ (h.imageCache _ (mem_of_cached hcached))
  | @miss view url _ _ =>
    have hreused := h.reused view url
    unfold getImage
    split
    · exact ⟨hreused.imageCache, hreused.blocks, hreused.views⟩
    · exact hreused
  | @failed index _ hdownload =>
    have hsame : receive received s (.downloaded index none) = received := by
      simp [receive, hdownload]
    rw [hsame]
    exact ⟨h.imageCache, h.blocks, h.views⟩
  | @completed index download v image hdownload _ =>
    have hnew : receive received s (.downloaded index (some image)) =
        (download.url, image) :: received := by
      simp [receive, hdownload]
    rw [hnew]
    have hviews : ∀ (view : Nat) v url image', s.views[view]? = some v →
        v.picture = .loaded url image' → (url, image') ∈ (download.url, image) :: received :=
      fun view v url image' hview hpicture =>
        List.mem_cons_of_mem _ (h.views view v url image' hview hpicture)
    have hcache : ∀ entry ∈ (download.url, image) :: s.imageCache,
        entry ∈ (download.url, image) :: received := by
      intro entry hentry
      rcases List.mem_cons.mp hentry with rfl | hentry
      · exact List.mem_cons_self
      · exact List.mem_cons_of_mem _ (h.imageCache entry hentry)
    have hblocks : ∀ block ∈ s.blocks, (block.1.url, block.2) ∈ (download.url, image) :: received :=
      fun block hblock => List.mem_cons_of_mem _ (h.blocks block hblock)
    unfold completed
    split
    · refine ⟨hcache, fun block hblock => ?_, hviews⟩
      rcases List.mem_append.mp hblock with hblock | hblock
      · exact hblocks block hblock
      · rw [List.mem_singleton.mp hblock]
        exact List.mem_cons_self
    · have hstored : Received ((download.url, image) :: received) { s with
          downloads := s.downloads.eraseIdx index
          imageCache := (download.url, image) :: s.imageCache } := ⟨hcache, hblocks, hviews⟩
      exact hstored.put _ List.mem_cons_self
  | @displayed download image blocks hblocks =>
    have hrest : Received received { s with blocks } := by
      refine ⟨h.imageCache, fun block hblock => h.blocks block ?_, h.views⟩
      rw [hblocks]
      exact List.mem_cons_of_mem _ hblock
    exact hrest.put _ (h.blocks (download, image) (by simp [hblocks]))
  | evicted =>
    refine ⟨fun entry hentry => h.imageCache entry (List.mem_filter.mp hentry).1, h.blocks, h.views⟩

end Received

/-- In every run everything in the cache and everything any view shows was received by a
download of just that URL. -/
theorem pictures_were_received (isURL : String → Bool) (sites : List Site)
    (received : List (String × Image)) (s : ImageCache Image)
    (h : Reachable (logged (step isURL) receive) ([], start sites) (received, s)) :
    (∀ url image, s.cached url = some image → (url, image) ∈ received) ∧
      ∀ (view : Nat) v url image, s.views[view]? = some v → v.picture = .loaded url image →
        (url, image) ∈ received := by
  have hstart : Received ([] : List (String × Image)) (start sites) := by
    refine ⟨List.forall_mem_nil _, List.forall_mem_nil _, fun view v url image hview hpicture => ?_⟩
    obtain ⟨site, -, rfl⟩ := List.mem_map.mp (List.mem_of_getElem? hview)
    cases hpicture
  have hreceived : Received received s := by
    refine h.invariant (fun s => Received s.1 s.2) hstart ?_
    intro s a s' hs hstep
    obtain ⟨final, hfinal, rfl⟩ := logged_cases hstep
    exact hs.step (.of_step hfinal)
  exact ⟨fun url image hcached => hreceived.imageCache _ (mem_of_cached hcached), hreceived.views⟩

theorem cached_isSome_iff {url : String} :
    (s.cached url).isSome = true ↔ ∃ entry ∈ s.imageCache, entry.1 = url := by
  rw [cached, List.lookup_isSome_iff]
  exact exists_congr fun entry => and_congr_right fun _ => beq_iff_eq.trans eq_comm

theorem Step.keeps_cached (hstep : Step isURL s a s') {url : String}
    (hcached : (s.cached url).isSome = true) (ha : a ≠ .evicted url) :
    (s'.cached url).isSome = true ∧
      (s'.downloads.filter (·.url = url)).Sublist (s.downloads.filter (·.url = url)) := by
  obtain ⟨entry, hentry, hurl⟩ := cached_isSome_iff.mp hcached
  cases hstep with
  | hit _ _ => exact ⟨hcached, List.Sublist.refl _⟩
  | @miss view url' _ hnone =>
    have hne : url' ≠ url := by
      rintro rfl
      simp [hnone] at hcached
    unfold getImage
    split
    · refine ⟨hcached, ?_⟩
      rw [List.filter_append]
      simp [hne, reused]
    · exact ⟨hcached, List.Sublist.refl _⟩
  | failed _ => exact ⟨hcached, (List.eraseIdx_sublist _ _).filter _⟩
  | @completed index download v image _ _ =>
    have hstored : ∃ entry ∈ (download.url, image) :: s.imageCache, entry.1 = url :=
      ⟨entry, List.mem_cons_of_mem _ hentry, hurl⟩
    unfold ImageCache.completed
    split
    · exact ⟨cached_isSome_iff.mpr hstored, (List.eraseIdx_sublist _ _).filter _⟩
    · exact ⟨cached_isSome_iff.mpr hstored, (List.eraseIdx_sublist _ _).filter _⟩
  | displayed _ => exact ⟨hcached, List.Sublist.refl _⟩
  | @evicted other =>
    have hne : entry.1 ≠ other := by
      rw [hurl]
      exact fun hsame => ha (congrArg Action.evicted hsame.symm)
    refine ⟨cached_isSome_iff.mpr ⟨entry, ?_, hurl⟩, List.Sublist.refl _⟩
    exact List.mem_filter.mpr ⟨hentry, decide_eq_true hne⟩

/-- Once a picture is cached, and until it is evicted, no view downloads it again. -/
theorem cached_until_evicted (isURL : String → Bool) (s s' : ImageCache Image) (url : String)
    (hcached : (s.cached url).isSome = true) (run : List (Action Image))
    (hkept : ∀ a ∈ run, a ≠ .evicted url) (hrun : exec (step isURL) s run = some s') :
    (s'.cached url).isSome = true ∧
      (s'.downloads.filter (·.url = url)).Sublist (s.downloads.filter (·.url = url)) := by
  induction run generalizing s with
  | nil =>
    obtain rfl := Option.some.inj hrun
    exact ⟨hcached, List.Sublist.refl _⟩
  | cons a rest ih =>
    obtain ⟨next, hnext, hrest⟩ := Option.bind_eq_some_iff.mp hrun
    obtain ⟨hstill, hsublist⟩ :=
      (Step.of_step hnext).keeps_cached hcached (hkept a List.mem_cons_self)
    obtain ⟨hend, hfewer⟩ :=
      ih next hstill (fun b hb => hkept b (List.mem_cons_of_mem _ hb)) hrest
    exact ⟨hend, hfewer.trans hsublist⟩

/-- Two rows for one picture: the second is shown from the cache. -/
def twice : List (Action Nat) :=
  [.cellForRowAt 0 "party.jpg", .downloaded 0 (some 7), .displayed, .cellForRowAt 1 "party.jpg"]

theorem pictures_were_received_twice : ∃ received s,
    exec (logged (step fun _ => true) receive) ([], start [.myEventCell, .memberCell]) twice =
      some (received, s) ∧ s.cached "party.jpg" = some 7 ∧ ("party.jpg", 7) ∈ received := by
  have hrun : ((exec (logged (step fun _ => true) receive)
      ([], start [.myEventCell, .memberCell]) twice).any fun s =>
        s.2.cached "party.jpg" = some 7) = true := by decide
  obtain ⟨s, hs, hcached⟩ := (Option.any_eq_true _ _).mp hrun
  have hcached := of_decide_eq_true hcached
  exact ⟨s.1, s.2, hs, hcached, (pictures_were_received (fun _ => true)
    [.myEventCell, .memberCell] s.1 s.2 ⟨twice, hs⟩).1 "party.jpg" 7 hcached⟩

theorem cached_until_evicted_twice : ∃ s s' : ImageCache Nat,
    exec (step fun _ => true) (start [.myEventCell, .memberCell]) (twice.take 3) = some s ∧
      exec (step fun _ => true) s (twice.drop 3) = some s' ∧
        (s'.cached "party.jpg").isSome = true := by
  have hrun : ((exec (step fun _ => true) (start [.myEventCell, .memberCell])
      (twice.take 3)).any fun s => (s.cached "party.jpg").isSome &&
        (exec (step fun _ => true) s (twice.drop 3)).isSome) = true := by decide
  obtain ⟨s, hs, hrest⟩ := (Option.any_eq_true _ _).mp hrun
  rw [Bool.and_eq_true] at hrest
  obtain ⟨s', hs'⟩ := Option.isSome_iff_exists.mp hrest.2
  refine ⟨s, s', hs, hs', ?_⟩
  exact (cached_until_evicted (fun _ => true) s s' "party.jpg" hrest.1 (twice.drop 3)
    (by simp [twice]) hs').1

end ImageCache

end GetTogether
