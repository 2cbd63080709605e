import GetTogether.Feed.Bare

/-! The comments of an event as its guests think of them: a conversation, to which a
comment is added when it is sent and from which it is taken when it is deleted. However
many screens write and delete at once, and from however old a list, what the database
holds is that conversation. -/
namespace GetTogether

open Realtime Roster

/-- What was said and not taken back, in the order of sending. -/
abbrev Conversation := List Comment

inductive Remark where
  | said (comment : Comment)
  | takenBack (eventID commentID : String)
  deriving DecidableEq, Repr

def Conversation.after (conversation : Conversation) : Remark → Conversation
  | .said comment => conversation ++ [comment]
  | .takenBack eventID commentID =>
    conversation.filter fun comment => ¬(comment.eventID = eventID ∧ comment.commentID = commentID)

theorem Comment.read_of_get_eq {db db' : Store} {path : Path}
    (h : ∀ rest, db'.get (path ++ rest) = db.get (path ++ rest)) :
    Comment.read db' path = Comment.read db path := by
  simp only [Comment.read, Store.string?, h]

theorem Comment.read_uploaded (db : Store) (comment : Comment) :
    Comment.read ((Write.setValue ["comment", comment.eventID, comment.commentID]
      comment.uploadedCommentData).apply db) ["comment", comment.eventID, comment.commentID] =
        some comment := by
  rw [Comment.read_eq_some]
  simp [Write.get_apply, Comment.uploadedCommentData]

namespace Feed

def remarks (ids : AutoId) (f : Feed) : Action → List Remark
  | .table screen .commitDelete => match f.commentVCs[screen]? with
    | some s => ((s.swiped.bind fun row => s.commentData[row]?).map fun comment =>
        Remark.takenBack s.vc.event.eventID comment.commentID).toList
    | none => []
  | .inputPressed screen content timeZone now => match f.commentVCs[screen]? with
    | some s => (s.currentUser.map fun currentUser =>
        Remark.said (s.vc.comment currentUser (ids.key f.world.drawn) content timeZone now)).toList
    | none => []
  | _ => []

def converse (ids : AutoId) (conversation : Conversation) (f : Feed) (a : Action) : Conversation :=
  (f.remarks ids a).foldl Conversation.after conversation

/-- The database holds the conversation, and the keys of all to be said are free. -/
structure Threads (ids : AutoId) (conversation : Conversation) (f : Feed) : Prop where
  read : ∀ eventID commentID comment,
    Comment.read f.world.db ["comment", eventID, commentID] = some comment ↔
      comment ∈ conversation ∧ comment.eventID = eventID ∧ comment.commentID = commentID
  complete : ∀ eventID commentID, f.world.db.contains ["comment", eventID, commentID] = true →
    ∃ comment ∈ conversation, comment.eventID = eventID ∧ comment.commentID = commentID
  keys : ∀ comment ∈ conversation, ∃ n < f.world.drawn, comment.commentID = ids.key n
  distinct : (conversation.map (·.commentID)).Nodup

variable {ids : AutoId} {f f' : Feed} {a : Action} {conversation : Conversation}

theorem Threads.empty (ids : AutoId) : Threads ids [] empty where
  read eventID commentID comment := by
    simp [Comment.read_eq_some, Feed.empty, World.empty]
  complete eventID commentID h := by
    simp [Feed.empty, World.empty, Store.empty, Store.contains] at h
  keys comment h := absurd h List.not_mem_nil
  distinct := List.nodup_nil

theorem Step.remarks_cases (h : Step ids f a f') :
    (f.remarks ids a = [] ∧
      ∀ rest, f'.world.db.get ("comment" :: rest) = f.world.db.get ("comment" :: rest)) ∨
    (∃ comment, f.remarks ids a = [.said comment] ∧ f.author a = some comment.userID ∧
      comment.commentID = ids.key f.world.drawn ∧ f'.world.drawn = f.world.drawn + 1 ∧
      f'.world.db = (Write.setValue ["comment", comment.eventID, comment.commentID]
        comment.uploadedCommentData).apply f.world.db) ∨
    ∃ eventID commentID, f.remarks ids a = [.takenBack eventID commentID] ∧
      (∃ s ∈ f.commentVCs, f.author a = s.currentUser) ∧
      f'.world.db = (Write.removeValue ["comment", eventID, commentID]).apply f.world.db := by
  have hdb := h.db_eq
  have hapart : (∀ write ∈ f.issued ids a, write.Apart "comment") →
      ∀ rest, f'.world.db.get ("comment" :: rest) = f.world.db.get ("comment" :: rest) := by
    intro hissued rest
    rw [hdb]
    exact get_applyAll_of_apart hissued rest
  cases h with
  | base h =>
    refine .inl ⟨rfl, hapart fun write hwrite => ?_⟩
    obtain ⟨head, hhead, hne⟩ := h.issued_off write hwrite
    exact Write.apart_of_topKey hhead hne
  | @table screen action s s' hs _ _ =>
    rcases written_eq s action with heq | ⟨row, comment, rfl, hrow, hcomment, heq⟩
    · cases action with
      | commitDelete =>
        have hnone : (s.swiped.bind fun row => s.commentData[row]?) = none := by
          rw [← Option.not_isSome_iff_eq_none]
          intro hsome
          obtain ⟨comment, hcomment⟩ := Option.isSome_iff_exists.mp hsome
          obtain ⟨row, hrow, hcomment⟩ := Option.bind_eq_some_iff.mp hcomment
          simp [CommentTable.written, CommentTable.commit, hrow, hcomment] at heq
        refine .inl ⟨by simp [remarks, hs, hnone], hapart ?_⟩
        simp [issued, hs, heq]
      | _ =>
        refine .inl ⟨rfl, hapart ?_⟩
        simp [issued, hs, heq]
    · refine .inr (.inr ⟨s.vc.event.eventID, comment.commentID, ?_, ?_, ?_⟩)
      · simp [remarks, hs, hrow, hcomment]
      · exact ⟨s, List.mem_of_getElem? hs, by simp [author, hs]⟩
      · rw [hdb]
        simp only [issued, hs, heq]
        rfl
  | @inputPressed screen content timeZone now s currentUser hs huser =>
    refine .inr (.inl ⟨s.vc.comment currentUser (ids.key f.world.drawn) content timeZone now, ?_⟩)
    exact ⟨by simp [remarks, hs, huser], by simp [author, hs, huser, CommentVC.comment], rfl, rfl, rfl⟩
  | @senderFetched i input writes hinput _ hwrites =>
    refine .inl ⟨rfl, hapart fun write hwrite => ?_⟩
    simp only [issued, hinput, hwrites, Option.getD_some] at hwrite
    rcases Input.writes_eq_some hwrites with rfl | ⟨sender, -, rfl⟩
    · exact absurd hwrite List.not_mem_nil
    · obtain ⟨notification, -, rfl⟩ := mem_userFetched hwrite
      exact Write.apart_setValue (by decide) _ _
  | didSelectRow hinbox hrow =>
    refine .inl ⟨rfl, hapart ?_⟩
    simp only [issued, hinbox, NotificationVC.didSelectRowAt, hrow]
    simpa using Write.apart_updateChildValues (by decide) _ _ _
  | _ => exact .inl ⟨rfl, fun rest => rfl⟩

section Steps

variable (hthreads : Threads ids conversation f)

include hthreads

theorem Threads.read_apart {db' : Store} {eventID commentID : String} {comment : Comment}
    (hsame : ∀ rest, db'.get (["comment", eventID, commentID] ++ rest) =
      f.world.db.get (["comment", eventID, commentID] ++ rest)) :
    Comment.read db' ["comment", eventID, commentID] = some comment ↔
      comment ∈ conversation ∧ comment.eventID = eventID ∧ comment.commentID = commentID := by
  rw [Comment.read_of_get_eq hsame]
  exact hthreads.read eventID commentID comment

theorem Threads.keep (hsame : ∀ rest, f'.world.db.get ("comment" :: rest) =
    f.world.db.get ("comment" :: rest)) (hdrawn : f.world.drawn ≤ f'.world.drawn) :
    Threads ids conversation f' where
  read eventID commentID comment := hthreads.read_apart fun rest => hsame _
  complete eventID commentID hnode := by
    rw [Store.contains_of_get_eq fun rest => hsame _] at hnode
    exact hthreads.complete eventID commentID hnode
  keys comment hmem := by
    obtain ⟨n, hn, hkey⟩ := hthreads.keys comment hmem
    exact ⟨n, by omega, hkey⟩
  distinct := hthreads.distinct

theorem Threads.fresh {comment : Comment} (hmem : comment ∈ conversation) :
    comment.commentID ≠ ids.key f.world.drawn := by
  obtain ⟨n, hn, hkey⟩ := hthreads.keys comment hmem
  intro hsame
  have hnumber := ids.injective (hkey.symm.trans hsame)
  omega

theorem Threads.said {comment : Comment} (hkey : comment.commentID = ids.key f.world.drawn)
    (hdrawn : f'.world.drawn = f.world.drawn + 1)
    (hdb : f'.world.db = (Write.setValue ["comment", comment.eventID, comment.commentID]
      comment.uploadedCommentData).apply f.world.db) :
    Threads ids (conversation ++ [comment]) f' := by
  have hother : ∀ {eventID commentID}, ¬(comment.eventID = eventID ∧ comment.commentID = commentID) →
      ∀ rest, f'.world.db.get (["comment", eventID, commentID] ++ rest) =
        f.world.db.get (["comment", eventID, commentID] ++ rest) := by
    intro eventID commentID hne rest
    rw [hdb, Write.get_apply]
    simp [hne]
  refine ⟨fun eventID commentID found => ?_, fun eventID commentID hnode => ?_, fun found hmem => ?_,
    ?_⟩
  · rw [List.mem_append, List.mem_singleton]
    by_cases hsame : comment.eventID = eventID ∧ comment.commentID = commentID
    · obtain ⟨rfl, rfl⟩ := hsame
      rw [hdb, Comment.read_uploaded, Option.some.injEq]
      constructor
      · intro h
        exact ⟨.inr h.symm, by rw [h], by rw [h]⟩
      · intro h
        rcases h.1 with hold | hnew
        · exact absurd (h.2.2.trans hkey) (hthreads.fresh hold)
        · exact hnew.symm
    · rw [hthreads.read_apart (hother hsame)]
      constructor
      · exact fun h => ⟨.inl h.1, h.2⟩
      · intro h
        rcases h.1 with hold | rfl
        · exact ⟨hold, h.2⟩
        · exact absurd h.2 hsame
  · by_cases hsame : comment.eventID = eventID ∧ comment.commentID = commentID
    · exact ⟨comment, List.mem_append_right _ (List.mem_singleton_self comment), hsame⟩
    · rw [Store.contains_of_get_eq (hother hsame)] at hnode
      obtain ⟨found, hmem, hfound⟩ := hthreads.complete eventID commentID hnode
      exact ⟨found, List.mem_append_left _ hmem, hfound⟩
  · rw [hdrawn]
    rcases List.mem_append.mp hmem with hold | hnew
    · obtain ⟨n, hn, hnumber⟩ := hthreads.keys found hold
      exact ⟨n, by omega, hnumber⟩
    · rw [List.mem_singleton.mp hnew]
      exact ⟨_, Nat.lt_succ_self _, hkey⟩
  · rw [List.map_append, List.map_singleton, ← List.concat_eq_append, List.nodup_concat]
    refine ⟨fun hmem => ?_, hthreads.distinct⟩
    obtain ⟨found, hfound, hsame⟩ := List.mem_map.mp hmem
    exact hthreads.fresh hfound (hsame.trans hkey)

theorem Threads.takenBack {eventID commentID : String} (hdrawn : f.world.drawn ≤ f'.world.drawn)
    (hdb : f'.world.db =
      (Write.removeValue ["comment", eventID, commentID]).apply f.world.db) :
    Threads ids (Conversation.after conversation (.takenBack eventID commentID)) f' := by
  have hget : ∀ e id rest, f'.world.db.get (["comment", e, id] ++ rest) =
      if eventID = e ∧ commentID = id then none
      else f.world.db.get (["comment", e, id] ++ rest) := by
    intro e id rest
    rw [hdb, Write.get_apply]
    by_cases hsame : eventID = e ∧ commentID = id <;> simp [hsame]
  refine ⟨fun e id found => ?_, fun e id hnode => ?_, fun found hmem => ?_, ?_⟩
  · simp only [Conversation.after, List.mem_filter, decide_eq_true_eq]
    by_cases hsame : eventID = e ∧ commentID = id
    · obtain ⟨rfl, rfl⟩ := hsame
      have hnone : f'.world.db.get ["comment", eventID, commentID, "eventID"] = none := by
        simpa using hget eventID commentID ["eventID"]
      rw [Comment.read_eq_some]
      simp only [List.cons_append, List.nil_append, hnone]
      constructor
      · exact fun h => absurd h.1 (by simp)
      · exact fun h => absurd h.2 h.1.2
    · rw [hthreads.read_apart fun rest => (hget e id rest).trans (if_neg hsame)]
      constructor
      · rintro ⟨hmem, rfl, rfl⟩
        exact ⟨⟨hmem, fun h => hsame ⟨h.1.symm, h.2.symm⟩⟩, rfl, rfl⟩
      · exact fun h => ⟨h.1.1, h.2⟩
  · obtain ⟨rest, value, hleaf⟩ := (Store.contains_iff _ _).mp hnode
    rw [hget] at hleaf
    by_cases hsame : eventID = e ∧ commentID = id
    · rw [if_pos hsame] at hleaf
      cases hleaf
    · rw [if_neg hsame] at hleaf
      obtain ⟨found, hmem, rfl, rfl⟩ :=
        hthreads.complete e id ((Store.contains_iff _ _).mpr ⟨rest, value, hleaf⟩)
      refine ⟨found, List.mem_filter.mpr ⟨hmem, ?_⟩, rfl, rfl⟩
      rw [decide_eq_true_eq]
      exact fun h => hsame ⟨h.1.symm, h.2.symm⟩
  · obtain ⟨n, hn, hkey⟩ := hthreads.keys found (List.mem_filter.mp hmem).1
    exact ⟨n, by omega, hkey⟩
  · exact hthreads.distinct.sublist (List.filter_sublist.map _)

theorem Threads.step (h : Step ids f a f') :
    Threads ids (converse ids conversation f a) f' := by
  unfold converse
  rcases h.remarks_cases with ⟨hnone, hsame⟩ | ⟨comment, hsaid, -, hkey, hdrawn, hdb⟩ |
    ⟨eventID, commentID, htaken, -, hdb⟩
  · rw [hnone]
    exact hthreads.keep hsame h.drawn_le
  · rw [hsaid]
    exact hthreads.said hkey hdrawn hdb
  · rw [htaken]
    exact hthreads.takenBack h.drawn_le hdb

theorem Threads.readComments (eventID : String) : ∃ comments,
    CommentVC.readComments f.world.db eventID = some comments ∧
      comments.Perm (conversation.filter (·.eventID = eventID)) := by
  have hcast : ((f.world.db.children ["comment", eventID]).mapM fun commentID =>
      Comment.read f.world.db ["comment", eventID, commentID]).isSome = true := by
    rw [mapM_isSome_iff]
    intro commentID hchild
    rw [Store.mem_children_iff_contains] at hchild
    obtain ⟨comment, hmem, hkey⟩ := hthreads.complete eventID commentID hchild
    exact Option.isSome_of_eq_some ((hthreads.read _ _ comment).mpr ⟨hmem, hkey⟩)
  obtain ⟨read, hread⟩ := Option.isSome_iff_exists.mp hcast
  refine ⟨_, by rw [CommentVC.readComments, hread]; rfl, ?_⟩
  apply (List.perm_insertionSort _ read).trans
  rw [List.perm_ext_iff_of_nodup]
  · intro comment
    rw [mem_mapM_iff hread, List.mem_filter, decide_eq_true_eq]
    constructor
    · intro h
      obtain ⟨commentID, -, hleaf⟩ := h
      obtain ⟨hmem, hevent, -⟩ := (hthreads.read _ _ comment).mp hleaf
      exact ⟨hmem, hevent⟩
    · intro h
      have hleaf := (hthreads.read eventID comment.commentID comment).mpr ⟨h.1, h.2, rfl⟩
      refine ⟨comment.commentID, ?_, hleaf⟩
      rw [Store.mem_children_iff_contains, Store.contains_iff]
      exact ⟨["eventID"], _, (Comment.read_eq_some.mp hleaf).1⟩
  · apply List.Nodup.of_map (·.commentID)
    rw [mapM_map_eq hread fun commentID comment hleaf =>
      ((hthreads.read eventID commentID comment).mp hleaf).2.2]
    exact f.world.db.nodup_children _
  · exact (List.Nodup.of_map _ hthreads.distinct).filter _

end Steps

theorem threads_reachable
    (h : Reachable (logged (step ids) (converse ids)) ([], Feed.empty) (conversation, f)) :
    Threads ids conversation f := by
  refine h.invariant (fun s => Threads ids s.1 s.2) (Threads.empty ids) ?_
  intro s a s' hthreads hstep
  obtain ⟨final, hfinal, rfl⟩ := logged_cases hstep
  exact hthreads.step (Step.of_step ids hfinal)

/-- Whatever is sent and deleted from whatever screens, a comment screen is shown exactly
what was said about its event and not taken back, each comment once, oldest first; no
comment is overwritten, comes back, or stops a reader. -/
theorem comments_are_the_conversation (ids : AutoId) (conversation : Conversation) (f : Feed)
    (h : Reachable (logged (step ids) (converse ids)) ([], Feed.empty) (conversation, f))
    (eventID : String) : ∃ comments,
      CommentVC.readComments f.world.db eventID = some comments ∧
      comments.Perm (conversation.filter (·.eventID = eventID)) ∧
      (comments.map (·.commentID)).Nodup ∧ comments.Pairwise fun a b => a.time ≤ b.time := by
  have hthreads := threads_reachable h
  obtain ⟨comments, hread, hperm⟩ := hthreads.readComments eventID
  refine ⟨comments, hread, hperm, ?_, CommentVC.readComments_sorted hread⟩
  rw [(hperm.map (·.commentID)).nodup_iff]
  exact hthreads.distinct.sublist (List.filter_sublist.map _)

def greeting : List Action :=
  World.creation.map .base ++ [.base (.openEvent "alice" "k" none), .openComments 0,
    .inputPressed 0 "Hello" .taipei 0]

theorem comments_are_the_conversation_greeting : ∃ conversation f comments,
    exec (logged (step .unary) (converse .unary)) ([], Feed.empty) greeting =
      some (conversation, f) ∧ conversation.length = 1 ∧
      CommentVC.readComments f.world.db "k" = some comments ∧
      comments.Perm (conversation.filter (·.eventID = "k")) := by
  have hrun : ((exec (logged (step .unary) (converse .unary)) ([], Feed.empty) greeting).any
      fun s => s.1.length = 1) = true := by decide
  obtain ⟨s, hs, hlength⟩ := (Option.any_eq_true _ _).mp hrun
  obtain ⟨comments, hread, hperm, -⟩ :=
    comments_are_the_conversation .unary s.1 s.2 ⟨greeting, hs⟩ "k"
  exact ⟨s.1, s.2, comments, hs, of_decide_eq_true hlength, hread, hperm⟩

end Feed

end GetTogether
