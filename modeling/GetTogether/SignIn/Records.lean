import GetTogether.Realtime.Run
import GetTogether.SignIn
import GetTogether.World.Copies

/-! Whether the account a login is posted for has its record: exactly the accounts do
whose record has been written by one of the two ways. -/
namespace GetTogether.SignIn

open Realtime

variable {s s' : SignIn} {a : Action} {t t' : List String × SignIn}

structure Recorded (t : List String × SignIn) : Prop where
  complete : ∀ uid, Complete t.2.db uid ↔ uid ∈ t.1
  contained : ∀ uid, t.2.db.contains ["user", uid] = true → uid ∈ t.1

theorem Recorded.start : Recorded ([], start) where
  complete uid := by simp [Complete, SignIn.start, GUser.read_eq_some]
  contained uid h := by simp [SignIn.start, Store.contains, Store.empty] at h

theorem complete_setValue (db : Store) (user : GUser) (uid : String) :
    Complete (db.setValue ["user", user.userID] user.uploadedUserData) uid ↔
      uid = user.userID ∨ Complete db uid := by
  by_cases hsame : uid = user.userID
  · subst hsame
    exact iff_of_true ⟨user, GUser.read_saved db user, rfl⟩ (.inl rfl)
  · have hread : GUser.read (db.setValue ["user", user.userID] user.uploadedUserData)
        ["user", uid] = GUser.read db ["user", uid] := by
      simp [GUser.read, Store.string?, Store.get_setValue, Ne.symm hsame]
    simp [Complete, hread, hsame]

theorem contains_setValue (db : Store) (user : GUser) {uid : String}
    (h : (db.setValue ["user", user.userID] user.uploadedUserData).contains ["user", uid] = true) :
    uid = user.userID ∨ db.contains ["user", uid] = true := by
  by_cases hsame : uid = user.userID
  · exact .inl hsame
  · right
    rw [Store.contains_iff] at h ⊢
    obtain ⟨rest, value, hget⟩ := h
    refine ⟨rest, value, ?_⟩
    simpa [Store.get_setValue, Ne.symm hsame] using hget

theorem Recorded.of_saved (h : Recorded t) (user : GUser)
    (hdb : t'.2.db = t.2.db.setValue ["user", user.userID] user.uploadedUserData)
    (hlog : t'.1 = user.userID :: t.1) : Recorded t' where
  complete uid := by rw [hdb, hlog, complete_setValue, h.complete, List.mem_cons]
  contained uid hcontains := by
    rw [hdb] at hcontains
    rw [hlog, List.mem_cons]
    exact (contains_setValue t.2.db user hcontains).imp_right (h.contained uid)

theorem Recorded.of_same (h : Recorded t) (hdb : t'.2.db = t.2.db) (hlog : t'.1 = t.1) :
    Recorded t' where
  complete uid := by rw [hdb, hlog, h.complete]
  contained uid hcontains := by
    rw [hlog]
    exact h.contained uid (hdb ▸ hcontains)

theorem Recorded.of_read (h : Recorded t) (gUser : GUser)
    (hdb : t'.2.db = t.2.db.applyAll (createdRecord t.2.db gUser))
    (hlog : t'.1 = gUser.userID :: t.1) : Recorded t' := by
  unfold createdRecord at hdb
  split at hdb
  · next hcontains =>
    have hold := h.contained gUser.userID hcontains
    have hsame : t'.2.db = t.2.db := hdb
    constructor
    · intro uid
      rw [hsame, hlog, h.complete, List.mem_cons]
      constructor
      · exact .inr
      · rintro (rfl | hmem)
        · exact hold
        · exact hmem
    · intro uid hnode
      rw [hlog]
      exact List.mem_cons_of_mem _ (h.contained uid (hsame ▸ hnode))
  · exact h.of_saved gUser hdb hlog

theorem Recorded.step (h : Recorded t) (hstep : logged SignIn.step note t a = some t') :
    Recorded t' := by
  obtain ⟨hstep, hlog⟩ := logged_eq_some.mp hstep
  cases a with
  | userCreated device uid form hasImage =>
    simp only [SignIn.step, Option.ite_none_right_eq_some, Option.some.injEq] at hstep
    exact h.of_same (by rw [← hstep.2]) hlog
  | putData upload succeeds =>
    simp only [SignIn.step, Option.bind_eq_bind, Option.bind_eq_some_iff,
      Option.ite_none_right_eq_some, Option.pure_def, Option.some.injEq] at hstep
    obtain ⟨closure, -, -, hsame⟩ := hstep
    exact h.of_same (by rw [← hsame]) hlog
  | downloadURL upload url email name =>
    simp only [SignIn.step, Option.bind_eq_bind, Option.bind_eq_some_iff,
      Option.ite_none_right_eq_some, Option.pure_def, Option.some.injEq] at hstep
    obtain ⟨closure, hclosure, -, hsame⟩ := hstep
    cases url with
    | none => exact h.of_same (by rw [← hsame]) hlog
    | some url =>
      apply h.of_saved (RegisterVC.uploadedUser closure email name url)
      · rw [← hsame]
        rfl
      · rw [hlog, note, hclosure]
        rfl
  | emailSignedIn device uid =>
    simp only [SignIn.step, Option.ite_none_right_eq_some, Option.some.injEq] at hstep
    exact h.of_same (by rw [← hstep.2]) hlog
  | providerSignedIn device provider user =>
    simp only [SignIn.step, Option.ite_none_left_eq_some, Option.some.injEq] at hstep
    exact h.of_same (by rw [← hstep.2]) hlog
  | recordRead read =>
    simp only [SignIn.step, Option.bind_eq_bind, Option.bind_eq_some_iff, Option.pure_def,
      Option.some.injEq] at hstep
    obtain ⟨pending, hpending, hsame⟩ := hstep
    apply h.of_read pending.gUser
    · rw [← hsame]
    · rw [hlog, note, hpending]
      rfl
  | readFailed read =>
    simp only [SignIn.step, Option.bind_eq_bind, Option.bind_eq_some_iff, Option.pure_def,
      Option.some.injEq] at hstep
    obtain ⟨pending, -, hsame⟩ := hstep
    exact h.of_same (by rw [← hsame]) hlog
  | signOut device =>
    have hsame := Option.some.inj hstep
    exact h.of_same (by rw [← hsame]) hlog

theorem postsComplete_iff (h : Recorded t) (hstep : logged SignIn.step note t a = some t') :
    PostsComplete t.2 a ↔ RecordWritten t a := by
  have hafter := h.step hstep
  obtain ⟨hstep, hlog⟩ := logged_eq_some.mp hstep
  have hposts : PostsComplete t.2 a ↔ ∀ device, t.2.posts a = some device →
      ∀ uid, t'.2.signedIn device = some uid → uid ∈ t'.1 := by
    constructor
    · intro hcomplete device hdevice uid huid
      exact (hafter.complete uid).mp (hcomplete device t'.2 hdevice hstep uid huid)
    · intro hwritten device s' hdevice hs' uid huid
      obtain rfl := Option.some.inj (hstep.symm.trans hs')
      exact (hafter.complete uid).mpr (hwritten device hdevice uid huid)
  rw [hposts, hlog]
  cases a with
  | emailSignedIn device uid =>
    simp only [SignIn.step, Option.ite_none_right_eq_some, Option.some.injEq] at hstep
    simp [posts, note, RecordWritten, ← hstep.2]
  | recordRead read =>
    simp only [SignIn.step, Option.bind_eq_bind, Option.bind_eq_some_iff, Option.pure_def,
      Option.some.injEq] at hstep
    obtain ⟨pending, hpending, hsame⟩ := hstep
    simp [posts, note, RecordWritten, hpending, ← hsame]
  | _ => simp [posts, RecordWritten]

/-- In a run every login that is posted finds the record of the account signed in,
exactly when every email sign-in is of an account whose record has been written and
record reads come back while such an account is signed in. -/
theorem posts_complete_iff (actions : List Action) :
    EachStep SignIn.step PostsComplete start actions ↔
      EachStep (logged SignIn.step note) RecordWritten ([], start) actions := by
  rw [← eachStep_logged note ([], start) actions]
  exact eachStep_iff Recorded (fun _ _ _ h hstep => postsComplete_iff h hstep)
    (fun _ _ _ h _ hstep => h.step hstep) Recorded.start actions

def registeredOnly : List Action :=
  [.userCreated 0 "alice" ⟨"alice@mail.com", "secret", "secret", "Alice"⟩ true, .putData 0 false]

/-- She can sign in, and has no record. -/
theorem login_without_record :
    ∃ s s', exec SignIn.step start registeredOnly = some s ∧
      s.step (.emailSignedIn 0 "alice") = some s' ∧ s.posts (.emailSignedIn 0 "alice") = some 0 ∧
      s'.signedIn 0 = some "alice" ∧ s'.db.contains ["user", "alice"] = false ∧
      ¬PostsComplete s (.emailSignedIn 0 "alice") := by
  have hrun : ((exec SignIn.step start registeredOnly).any fun s =>
      (s.step (.emailSignedIn 0 "alice")).any fun s' => s'.signedIn 0 = some "alice" ∧
        s'.db.contains ["user", "alice"] = false ∧
        GUser.read s'.db ["user", "alice"] = none) = true := by decide
  obtain ⟨s, hs, h⟩ := (Option.any_eq_true _ _).mp hrun
  obtain ⟨s', hs', h⟩ := (Option.any_eq_true _ _).mp h
  obtain ⟨hsigned, hnode, hread⟩ := of_decide_eq_true h
  refine ⟨s, s', hs, hs', rfl, hsigned, hnode, fun hcomplete => ?_⟩
  obtain ⟨user, huser, -⟩ := hcomplete 0 s' rfl hs' "alice" hsigned
  exact absurd (hread.symm.trans huser) (by simp)

end GetTogether.SignIn
