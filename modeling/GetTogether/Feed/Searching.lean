import GetTogether.Feed.Told
import GetTogether.MemberSearchVC
import Mathlib.Data.List.Infix

/-! The app with the screens that search for users. Nothing about the users that are picked
is taken for granted any more: each comes from a row of such a screen. -/
namespace GetTogether

open Realtime Roster

structure UserSearch where
  screen : Nat
  vc : MemberSearchVC := {}
  deriving DecidableEq, Repr

structure Searching where
  feed : Feed
  searches : List UserSearch

namespace Feed

variable {ids : AutoId} {f f' : Feed} {a : Action} {uid : String}

theorem Step.registered (h : Step ids f a f') (huid : Registered f.world.db uid) :
    Registered f'.world.db uid := by
  by_cases hbase : ∃ action, a = .base action
  · obtain ⟨action, rfl⟩ := hbase
    cases h with
    | base h => exact h.registered huid
  · have hbase : ∀ action, a ≠ .base action := fun action ha => hbase ⟨action, ha⟩
    obtain ⟨count, heq⟩ := h.world_eq hbase
    rw [heq]
    exact (same_of_aside (h.issued_aside hbase) count).of_bare.registered huid

theorem read_user (h : Reachable (step ids) empty f)
    (hnode : f.world.db.contains ["user", uid] = true) : ∃ user,
    GUser.read f.world.db ["user", uid] = some user ∧ user.userID = uid ∧ uid ≠ "" := by
  have hne : "user" ≠ "comment" := by decide
  have hlaw := lawful_reachable h
  have hbare := hlaw.accounts.stored uid ((Store.contains_hide hne _).trans hnode)
  obtain ⟨user, huser⟩ := Option.isSome_iff_exists.mp hbare
  exact ⟨user, (GUser.read_hide hne _).symm.trans huser, GUser.userID_of_read hlaw.schema huser⟩

theorem contains_of_registered (huid : Registered f.world.db uid) :
    f.world.db.contains ["user", uid] = true := by
  obtain ⟨user, huser⟩ := Option.isSome_iff_exists.mp huid
  exact (Store.contains_iff _ _).mpr ⟨["userID"], _, (GUser.read_eq_some.mp huser).1⟩

end Feed

namespace Searching

inductive Action where
  | feed (action : Feed.Action)
  | memberSearch (screen : Nat)
  | childAdded (search : Nat) (uid : String)
  | updateSearchResults (search : Nat) (searchText : Option String)
  | didSelectRow (search row : Nat)

def empty : Searching := ⟨.empty, []⟩

def setSearch (s : Searching) (i : Nat) (search : UserSearch) : Searching :=
  { s with searches := s.searches.set i search }

/-- Whether the action hands a user to an edit screen. -/
def picks : Feed.Action → Bool
  | .base (.didUpdateMember _ _) => true
  | _ => false

variable (ids : AutoId) (contains : String → String → Bool)

def step (s : Searching) : Action → Option Searching
  | .feed action =>
    if picks action then none
    else (Feed.step ids s.feed action).map fun feed => { s with feed }
  | .memberSearch screen => do
    let _ ← s.feed.world.editing screen
    return { s with searches := s.searches ++ [{ screen }] }
  | .childAdded i uid => do
    let search ← s.searches[i]?
    if s.feed.world.db.contains ["user", uid] && !decide (uid ∈ search.vc.added) then
      let vc ← search.vc.childAdded s.feed.world.db uid
      return s.setSearch i { search with vc }
    else none
  | .updateSearchResults i searchText => do
    let search ← s.searches[i]?
    return s.setSearch i { search with vc := search.vc.updateSearchResults contains searchText }
  | .didSelectRow i row => do
    let search ← s.searches[i]?
    let vc ← s.feed.world.editing search.screen
    let selectedMember ← search.vc.didSelectRowAt row
    return { s with feed := { s.feed with
      world := s.feed.world.setAdd search.screen (vc.didUpdateMember selectedMember) } }

inductive Step (s : Searching) : Action → Searching → Prop
  | feed {action : Feed.Action} {feed : Feed} : Feed.step ids s.feed action = some feed →
      Step s (.feed action) { s with feed }
  | memberSearch {screen : Nat} :
      Step s (.memberSearch screen) { s with searches := s.searches ++ [{ screen }] }
  | childAdded {i : Nat} {uid : String} {search : UserSearch} {vc : MemberSearchVC} :
      s.searches[i]? = some search → s.feed.world.db.contains ["user", uid] = true →
      uid ∉ search.vc.added → search.vc.childAdded s.feed.world.db uid = some vc →
      Step s (.childAdded i uid) (s.setSearch i { search with vc })
  | updateSearchResults {i : Nat} {searchText : Option String} {search : UserSearch} :
      s.searches[i]? = some search → Step s (.updateSearchResults i searchText)
        (s.setSearch i { search with vc := search.vc.updateSearchResults contains searchText })
  | didSelectRow {i row : Nat} {search : UserSearch} {vc : AddEventVC} {selectedMember : GUser} :
      s.searches[i]? = some search → s.feed.world.editing search.screen = some vc →
      search.vc.matchingItems[row]? = some selectedMember →
      Step s (.didSelectRow i row) { s with feed := { s.feed with
        world := s.feed.world.setAdd search.screen (vc.didUpdateMember selectedMember) } }

variable {ids contains} {s s' : Searching} {a : Action}

theorem Step.of_step (h : step ids contains s a = some s') : Step ids contains s a s' := by
  cases a with
  | feed action =>
    simp only [step, Option.ite_none_left_eq_some, Option.map_eq_some_iff] at h
    obtain ⟨-, feed, hfeed, rfl⟩ := h
    exact .feed hfeed
  | memberSearch screen =>
    simp only [step, Option.bind_eq_bind, Option.bind_eq_some_iff, Option.pure_def,
      Option.some.injEq] at h
    obtain ⟨_, -, rfl⟩ := h
    exact .memberSearch
  | childAdded i uid =>
    simp only [step, Option.bind_eq_bind, Option.bind_eq_some_iff, Option.pure_def,
      Option.ite_none_right_eq_some, Option.some.injEq, Bool.and_eq_true, Bool.not_eq_true',
      decide_eq_false_iff_not] at h
    obtain ⟨search, hsearch, ⟨hfound, hnew⟩, vc, hvc, rfl⟩ := h
    exact .childAdded hsearch hfound hnew hvc
  | updateSearchResults i searchText =>
    simp only [step, Option.bind_eq_bind, Option.bind_eq_some_iff, Option.pure_def,
      Option.some.injEq] at h
    obtain ⟨search, hsearch, rfl⟩ := h
    exact .updateSearchResults hsearch
  | didSelectRow i row =>
    simp only [step, Option.bind_eq_bind, Option.bind_eq_some_iff, Option.pure_def,
      Option.some.injEq] at h
    obtain ⟨search, hsearch, vc, hvc, selectedMember, hrow, rfl⟩ := h
    exact .didSelectRow hsearch hvc hrow

structure Searched (db : Store) (vc : MemberSearchVC) : Prop where
  registered : ∀ uid ∈ vc.added, Registered db uid
  nodup : vc.added.Nodup
  memberData : vc.memberData.map (·.userID) = vc.added
  matchingItems : vc.matchingItems.Sublist vc.memberData

theorem Searched.opened (db : Store) : Searched db {} where
  registered _ h := absurd h List.not_mem_nil
  nodup := List.nodup_nil
  memberData := rfl
  matchingItems := List.Sublist.refl _

theorem Searched.mono {db db' : Store} {vc : MemberSearchVC} (h : Searched db vc)
    (hkeep : ∀ uid, Registered db uid → Registered db' uid) : Searched db' vc where
  registered uid huid := hkeep uid (h.registered uid huid)
  nodup := h.nodup
  memberData := h.memberData
  matchingItems := h.matchingItems

theorem Searched.childAdded {db : Store} {vc : MemberSearchVC} (h : Searched db vc) {uid : String}
    {user : GUser} (hread : GUser.read db ["user", uid] = some user) (hid : user.userID = uid)
    (hnew : uid ∉ vc.added) :
    Searched db { vc with memberData := vc.memberData ++ [user], added := vc.added ++ [uid] } where
  registered other hother := by
    rcases List.mem_append.mp hother with hother | hother
    · exact h.registered other hother
    · rw [List.mem_singleton.mp hother]
      exact Option.isSome_of_eq_some hread
  nodup := by
    rw [List.nodup_append_comm]
    exact List.nodup_cons.mpr ⟨hnew, h.nodup⟩
  memberData := by rw [List.map_append, h.memberData, List.map_singleton, hid]
  matchingItems := h.matchingItems.trans (List.sublist_append_left _ _)

theorem Searched.updateSearchResults {db : Store} {vc : MemberSearchVC} (h : Searched db vc)
    (searchText : Option String) : Searched db (vc.updateSearchResults contains searchText) := by
  cases searchText with
  | none => exact h
  | some searchText => exact ⟨h.registered, h.nodup, h.memberData, List.filter_sublist⟩

theorem Searched.row {db : Store} {vc : MemberSearchVC} (h : Searched db vc) {row : Nat}
    {user : GUser} (hrow : vc.matchingItems[row]? = some user) : Registered db user.userID := by
  apply h.registered
  rw [← h.memberData]
  exact List.mem_map_of_mem (h.matchingItems.subset (List.mem_of_getElem? hrow))

/-- Picking a user from a row is the action the rest of the app was studied with. -/
theorem picked {search : UserSearch} {vc : AddEventVC} {user : GUser}
    (h : Reachable (Feed.step ids) Feed.empty s.feed)
    (hedit : s.feed.world.editing search.screen = some vc)
    (huser : Registered s.feed.world.db user.userID) :
    Feed.step ids s.feed (.base (.didUpdateMember search.screen user)) = some { s.feed with
      world := s.feed.world.setAdd search.screen (vc.didUpdateMember user) } := by
  have hfound := Feed.contains_of_registered huser
  obtain ⟨-, -, -, huid⟩ := Feed.read_user h hfound
  simp [Feed.step, World.step, hedit, hfound, huid]

structure Sound (ids : AutoId) (s : Searching) : Prop where
  feed : Reachable (Feed.step ids) Feed.empty s.feed
  searches : ∀ search ∈ s.searches, Searched s.feed.world.db search.vc

theorem Sound.empty (ids : AutoId) : Sound ids empty where
  feed := .refl _
  searches _ h := absurd h List.not_mem_nil

theorem Sound.setSearch (hs : Sound ids s) {i : Nat} {search : UserSearch}
    (hsearch : Searched s.feed.world.db search.vc) : Sound ids (s.setSearch i search) := by
  refine ⟨hs.feed, fun other hother => ?_⟩
  rcases List.mem_or_eq_of_mem_set hother with hother | rfl
  · exact hs.searches other hother
  · exact hsearch

theorem Sound.step (hs : Sound ids s) (h : Step ids contains s a s') : Sound ids s' := by
  cases h with
  | feed hfeed =>
    refine ⟨hs.feed.tail hfeed, fun search hsearch => ?_⟩
    exact (hs.searches search hsearch).mono fun _ => (Feed.Step.of_step ids hfeed).registered
  | memberSearch =>
    refine ⟨hs.feed, fun search hsearch => ?_⟩
    rcases List.mem_append.mp hsearch with hsearch | hsearch
    · exact hs.searches search hsearch
    · rw [List.mem_singleton.mp hsearch]
      exact .opened _
  | childAdded hsearch hfound hnew hvc =>
    obtain ⟨user, hread, hid, -⟩ := Feed.read_user hs.feed hfound
    obtain rfl := Option.some.inj ((MemberSearchVC.childAdded_of_read hread).symm.trans hvc)
    exact hs.setSearch ((hs.searches _ (List.mem_of_getElem? hsearch)).childAdded hread hid hnew)
  | updateSearchResults hsearch =>
    exact hs.setSearch ((hs.searches _ (List.mem_of_getElem? hsearch)).updateSearchResults _)
  | didSelectRow hsearch hedit hrow =>
    have hregistered := (hs.searches _ (List.mem_of_getElem? hsearch)).row hrow
    exact ⟨hs.feed.tail (picked hs.feed hedit hregistered), hs.searches⟩

theorem sound_reachable (h : Reachable (step ids contains) empty s) : Sound ids s :=
  h.invariant (Sound ids) (Sound.empty ids) fun _ _ _ hs hstep =>
    hs.step (Step.of_step hstep)

/-- With the search screens in place of any assumption on the users that are picked, the
rest of the app stays within the states it was studied in, and a row can be tapped as
long as the edit screen waits: it hands over a registered user. -/
theorem rows_hand_over_registered_users (ids : AutoId) (contains : String → String → Bool)
    (s : Searching) (h : Reachable (step ids contains) Searching.empty s) :
    Reachable (Feed.step ids) Feed.empty s.feed ∧
    ∀ (i row : Nat) (search : UserSearch) (user : GUser), s.searches[i]? = some search →
      search.vc.matchingItems[row]? = some user →
      (s.feed.world.editing search.screen).isSome = true →
      ∃ s', step ids contains s (.didSelectRow i row) = some s' ∧
        Feed.step ids s.feed (.base (.didUpdateMember search.screen user)) = some s'.feed ∧
        s'.searches = s.searches := by
  have hs := sound_reachable h
  refine ⟨hs.feed, fun i row search user hsearch hrow hedit => ?_⟩
  obtain ⟨vc, hedit⟩ := Option.isSome_iff_exists.mp hedit
  have hregistered := (hs.searches search (List.mem_of_getElem? hsearch)).row hrow
  have htap : step ids contains s (.didSelectRow i row) = some { s with feed := { s.feed with
      world := s.feed.world.setAdd search.screen (vc.didUpdateMember user) } } := by
    simp [step, hsearch, hedit, MemberSearchVC.didSelectRowAt, hrow]
  exact ⟨_, htap, picked hs.feed hedit hregistered, rfl⟩

/-- The comparison on texts of plain letters. -/
def containsPlain (text searchText : String) : Bool :=
  searchText ≠ "" && decide (searchText.toList.map Char.toLower <:+: text.toList.map Char.toLower)

/-- Alice looks for users to invite to a new event. -/
def seeking : List Action :=
  [.feed (.base (.saveUser World.alice)), .feed (.base (.saveUser World.bob)),
    .feed (.base (.newEvent "alice" "2018-12-01 12:00")), .memberSearch 0]

theorem rows_hand_over_registered_users_seeking : ∃ s s',
    exec (step .unary containsPlain) Searching.empty
        (seeking ++ [.childAdded 0 "bob", .updateSearchResults 0 (some "BO")]) = some s ∧
      step .unary containsPlain s (.didSelectRow 0 0) = some s' ∧
      Feed.step .unary s.feed (.base (.didUpdateMember 0 World.bob)) = some s'.feed := by
  have hrun : ((exec (step .unary containsPlain) Searching.empty
      (seeking ++ [.childAdded 0 "bob", .updateSearchResults 0 (some "BO")])).any fun s =>
        (s.feed.world.editing 0).isSome && decide (s.searches[0]? = some (⟨0, [World.bob],
          [World.bob], ["bob"]⟩ : UserSearch))) = true := by decide
  obtain ⟨s, hs, hrest⟩ := (Option.any_eq_true _ _).mp hrun
  rw [Bool.and_eq_true] at hrest
  obtain ⟨s', htap, hpick, -⟩ := (rows_hand_over_registered_users .unary containsPlain s ⟨_, hs⟩).2
    0 0 ⟨0, [World.bob], [World.bob], ["bob"]⟩ World.bob (of_decide_eq_true hrest.2) rfl hrest.1
  exact ⟨s, s', hs, htap, hpick⟩

theorem exec_childAdded (hs : Sound ids s) {i : Nat} {search : UserSearch}
    (hsearch : s.searches[i]? = some search) {order : List String} (hnodup : order.Nodup)
    (hnew : ∀ uid ∈ order, s.feed.world.db.contains ["user", uid] = true ∧
      uid ∉ search.vc.added) :
    ∃ loaded, (order.mapM fun uid => GUser.read s.feed.world.db ["user", uid]) = some loaded ∧
      exec (step ids contains) s (order.map (.childAdded i)) =
        some (s.setSearch i ⟨search.screen, search.vc.memberData ++ loaded,
          search.vc.matchingItems, search.vc.added ++ order⟩) := by
  induction order generalizing s search with
  | nil =>
    obtain ⟨hlt, rfl⟩ := List.getElem?_eq_some_iff.mp hsearch
    have hsame : s.setSearch i s.searches[i] = s := by rw [setSearch, List.set_getElem_self]
    refine ⟨[], rfl, ?_⟩
    rw [List.append_nil, List.append_nil]
    exact congrArg some hsame.symm
  | cons uid rest ih =>
    obtain ⟨hfound, hfresh⟩ := hnew uid List.mem_cons_self
    obtain ⟨user, hread, hid, -⟩ := Feed.read_user hs.feed hfound
    obtain ⟨huid, hnodup⟩ := List.nodup_cons.mp hnodup
    obtain ⟨next, hnext⟩ : ∃ next : UserSearch, next = ⟨search.screen, search.vc.memberData ++ [user],
        search.vc.matchingItems, search.vc.added ++ [uid]⟩ := ⟨_, rfl⟩
    have hstep : step ids contains s (.childAdded i uid) = some (s.setSearch i next) := by
      simp [step, hsearch, hfound, hfresh, MemberSearchVC.childAdded_of_read hread, hnext]
    have hlt := (List.getElem?_eq_some_iff.mp hsearch).1
    have hsearch' : (s.setSearch i next).searches[i]? = some next := by simp [setSearch, hlt]
    have hnew' : ∀ other ∈ rest, (s.setSearch i next).feed.world.db.contains ["user", other] = true ∧
        other ∉ next.vc.added := by
      intro other hother
      obtain ⟨hcontains, hadded⟩ := hnew other (List.mem_cons_of_mem _ hother)
      refine ⟨hcontains, ?_⟩
      rw [hnext, List.mem_append, List.mem_singleton, not_or]
      exact ⟨hadded, fun hsame => huid (hsame ▸ hother)⟩
    obtain ⟨loaded, hloaded, hrun⟩ := ih (hs.step (.of_step hstep)) hsearch' hnodup hnew'
    refine ⟨user :: loaded, ?_, ?_⟩
    · have hloaded : rest.mapM (fun uid => GUser.read s.feed.world.db ["user", uid]) =
          some loaded := hloaded
      simp [List.mapM_cons, hread, hloaded]
    · rw [List.map_cons, exec, hstep, Option.bind_some, hrun, hnext]
      simp [setSearch]

/-- Once the observer has been called for all users, in whatever order, a search shows
exactly the users whose name or email has the text in it: every user is loaded once. -/
theorem search_finds_everyone (ids : AutoId) (contains : String → String → Bool) (s : Searching)
    (h : Reachable (step ids contains) Searching.empty s) (i : Nat) (search : UserSearch)
    (hsearch : s.searches[i]? = some search) (order : List String)
    (horder : order.Perm ((s.feed.world.db.children ["user"]).filter (· ∉ search.vc.added)))
    (searchText : String) :
    ∃ loaded s' found, (order.mapM fun uid => GUser.read s.feed.world.db ["user", uid]) = some loaded ∧
      exec (step ids contains) s
        (order.map (.childAdded i) ++ [.updateSearchResults i (some searchText)]) = some s' ∧
      s'.feed = s.feed ∧ s'.searches[i]? = some found ∧
      found.vc.matchingItems = (search.vc.memberData ++ loaded).filter
        (MemberSearchVC.isMatch contains searchText) ∧
      ((search.vc.memberData ++ loaded).map (·.userID)).Perm (s.feed.world.db.children ["user"]) := by
  have hs := sound_reachable h
  have hsearched := hs.searches search (List.mem_of_getElem? hsearch)
  have hlt := (List.getElem?_eq_some_iff.mp hsearch).1
  have hmem : ∀ uid ∈ order, s.feed.world.db.contains ["user", uid] = true ∧
      uid ∉ search.vc.added := by
    intro uid huid
    have hchild := horder.subset huid
    rw [List.mem_filter, Store.mem_children_iff_contains, decide_eq_true_eq] at hchild
    exact hchild
  have hnodup : order.Nodup :=
    horder.nodup_iff.mpr ((s.feed.world.db.nodup_children ["user"]).filter _)
  obtain ⟨loaded, hloaded, hrun⟩ := exec_childAdded hs hsearch hnodup hmem
  obtain ⟨all, hall⟩ : ∃ all : UserSearch, all = ⟨search.screen, search.vc.memberData ++ loaded,
      search.vc.matchingItems, search.vc.added ++ order⟩ := ⟨_, rfl⟩
  rw [← hall] at hrun
  have hsearch' : (s.setSearch i all).searches[i]? = some all := by simp [setSearch, hlt]
  have hknown := (sound_reachable (h.trans ⟨_, hrun⟩)).searches all (List.mem_of_getElem? hsearch')
  obtain ⟨found, hfound⟩ : ∃ found : UserSearch,
      found = { all with vc := all.vc.filterMemberData contains searchText } := ⟨_, rfl⟩
  refine ⟨loaded, s.setSearch i found, found, hloaded, ?_, rfl, ?_, ?_, ?_⟩
  · rw [exec_append, hrun, Option.bind_some, exec, step, hsearch', hfound]
    simp [exec, setSearch, MemberSearchVC.updateSearchResults]
  · simp [setSearch, hlt]
  · rw [hfound, hall]
    rfl
  · have hdata : ((search.vc.memberData ++ loaded).map (·.userID)) = search.vc.added ++ order := by
      simpa [hall] using hknown.memberData
    rw [hdata, List.perm_ext_iff_of_nodup (by simpa [hall] using hknown.nodup)
      (Store.nodup_children _ _)]
    intro uid
    rw [List.mem_append, horder.mem_iff, List.mem_filter, decide_eq_true_eq]
    constructor
    · intro huid
      rcases huid with hadded | ⟨hchild, -⟩
      · rw [Store.mem_children_iff_contains]
        exact Feed.contains_of_registered (hsearched.registered uid hadded)
      · exact hchild
    · intro hchild
      by_cases hadded : uid ∈ search.vc.added
      · exact .inl hadded
      · exact .inr ⟨hchild, hadded⟩

theorem search_finds_everyone_seeking : ∃ s s' found,
    exec (step .unary containsPlain) Searching.empty seeking = some s ∧
      exec (step .unary containsPlain) s
        [.childAdded 0 "bob", .childAdded 0 "alice", .updateSearchResults 0 (some "mail")] = some s' ∧
      s'.searches[0]? = some found ∧ found.vc.matchingItems = [World.bob, World.alice] := by
  have hrun : ((exec (step .unary containsPlain) Searching.empty seeking).any fun s =>
      decide (s.searches[0]? = some (⟨0, {}⟩ : UserSearch)) &&
        decide (s.feed.world.db.children ["user"] = ["alice", "bob"]) &&
        decide (["bob", "alice"].mapM (fun uid => GUser.read s.feed.world.db ["user", uid]) =
          some [World.bob, World.alice])) = true := by decide
  obtain ⟨s, hs, hrest⟩ := (Option.any_eq_true _ _).mp hrun
  simp only [Bool.and_eq_true, decide_eq_true_eq] at hrest
  obtain ⟨⟨hsearch, hchildren⟩, hread⟩ := hrest
  obtain ⟨loaded, s', found, hloaded, hexec, -, hfound, hrows, -⟩ :=
    search_finds_everyone .unary containsPlain s ⟨_, hs⟩ 0 ⟨0, {}⟩ hsearch ["bob", "alice"]
      (by rw [hchildren]; decide) "mail"
  obtain rfl : loaded = [World.bob, World.alice] := Option.some.inj (hloaded.symm.trans hread)
  refine ⟨s, s', found, hs, hexec, hfound, hrows.trans ?_⟩
  decide +kernel

end Searching

end GetTogether
