import GetTogether.AddEventVC
import GetTogether.CommentVC
import GetTogether.NotificationVC
import GetTogether.World.Writes

/-! Notifications and comments, with the clocks that their times were taken from. A
time is taken when a handler starts; an answer to an invitation takes it when the
prompt is shown, and the notifications of a comment when the comment is sent. -/
namespace GetTogether.Dates

open Realtime

/-- The list that a write files a new notification or comment in, and its time. -/
def created : Write → Option (Path × String)
  | .setValue path tree =>
    if path.head? = some "notification" ∨ path.head? = some "comment" then
      ((tree.get ["time"]).bind Scalar.string?).map fun time => (path.dropLast, time)
    else none
  | _ => none

structure Stamp where
  device : TimeZone
  made : Moment

def Stamp.text (stamp : Stamp) : String := (timeFormatter stamp.device).string stamp.made.date

def Stamp.reading (stamp : Stamp) : Int := stamp.device.reading stamp.made.toInstant

structure Prompt where
  vc : EventContentVC
  stamp : Stamp

structure Sending where
  vc : CommentVC
  currentUser : String
  commentID : String
  time : String
  stamp : Stamp

structure Entry where
  list : Path
  time : String
  stamp : Stamp
  written : Moment

structure Timeline where
  now : Moment
  prompts : List Prompt := []
  sendings : List Sending := []
  entries : List Entry := []

/-- What the devices do; each action is taken at the current moment. -/
inductive Action where
  | wait (later : Moment)
  | uploadEventData (device : TimeZone) (vc : AddEventVC) (runtime : Runtime)
      (signedIn : Option String) (autoID : String) (newID : Nat → String) (url : String)
  | dropOut (device : TimeZone) (vc : EventContentVC) (autoID : String)
  | showAnwserSelector (device : TimeZone) (vc : EventContentVC) (user : GUser)
      (notificationID : String)
  | agree (prompt : Nat)
  | reject (prompt : Nat)
  | inputPressed (device : TimeZone) (vc : CommentVC) (currentUser commentID content : String)
  | userFetched (sending : Nat) (sender : GUser) (newID : Nat → String)

namespace Timeline

def stamp (timeline : Timeline) (device : TimeZone) : Stamp := ⟨device, timeline.now⟩

def file (timeline : Timeline) (stamp : Stamp) (writes : List Write) : Timeline :=
  { timeline with
    entries := timeline.entries ++ (writes.filterMap created).map fun new =>
      ⟨new.1, new.2, stamp, timeline.now⟩ }

def answer (timeline : Timeline) (prompt : Nat)
    (writes : EventContentVC → AnswerSelector → List Write) : Option Timeline := do
  let shown ← timeline.prompts[prompt]?
  let selector ← shown.vc.answerSelector
  return { timeline.file shown.stamp (writes shown.vc selector) with
    prompts := timeline.prompts.eraseIdx prompt }

def step (timeline : Timeline) : Action → Option Timeline
  | .wait later =>
    if timeline.now.date ≤ later.date then some { timeline with now := later } else none
  | .uploadEventData device vc runtime signedIn autoID newID url =>
    let stamp := timeline.stamp device
    some (timeline.file stamp
      (vc.uploadEventData runtime signedIn autoID newID stamp.text url).writes)
  | .dropOut device vc autoID =>
    let stamp := timeline.stamp device
    if vc.showsDropOutAlert then some (timeline.file stamp (vc.dropOut autoID stamp.text)) else none
  | .showAnwserSelector device vc user notificationID =>
    let stamp := timeline.stamp device
    some { timeline with
      prompts := timeline.prompts ++ [⟨vc.showAnwserSelector user stamp.text notificationID, stamp⟩] }
  | .agree prompt => timeline.answer prompt fun vc selector => vc.agree selector
  | .reject prompt => timeline.answer prompt fun vc selector => (vc.reject selector).writes
  | .inputPressed device vc currentUser commentID content =>
    let stamp := timeline.stamp device
    some { timeline.file stamp
        (vc.inputPressed currentUser commentID content device timeline.now.date) with
      sendings := timeline.sendings ++
        [⟨vc, currentUser, commentID, CommentVC.time device timeline.now.date, stamp⟩] }
  | .userFetched sending sender newID => do
    let sent ← timeline.sendings[sending]?
    return { timeline.file sent.stamp
        (sent.vc.userFetched sent.currentUser sent.commentID sender newID sent.time) with
      sendings := timeline.sendings.eraseIdx sending }

end Timeline

/-! Whatever a handler files carries the time the handler was given. -/

def Carries (time : String) (write : Write) : Prop :=
  ∀ new, created write = some new → new.2 = time

theorem carries_notification (notification : GNotification) (id : String) :
    Carries notification.time
      (.setValue ["notification", id] notification.uploadNotification) := by
  intro new h
  simp [created, GNotification.uploadNotification, Scalar.string?] at h
  simp [← h]

theorem carries_comment (comment : Comment) (eventID id : String) :
    Carries comment.time (.setValue ["comment", eventID, id] comment.uploadedCommentData) := by
  intro new h
  simp [created, Comment.uploadedCommentData, Scalar.string?] at h
  simp [← h]

theorem carries_elsewhere (time : String) {path : Path} (tree : Tree)
    (h : path.head? ≠ some "notification" ∧ path.head? ≠ some "comment") :
    Carries time (.setValue path tree) := by
  intro new hnew
  simp [created, h.1, h.2] at hnew

theorem carries_updateChildValues (time : String) (path : Path)
    (fields : List (String × Scalar)) : Carries time (.updateChildValues path fields) := by
  intro new h
  cases h

theorem carries_removeValue (time : String) (path : Path) :
    Carries time (.removeValue path) := by
  intro new h
  cases h

theorem carries_dropOut (vc : EventContentVC) (autoID time : String) :
    ∀ write ∈ vc.dropOut autoID time, Carries time write := by
  unfold EventContentVC.dropOut
  simp only [List.forall_mem_cons]
  refine ⟨carries_elsewhere _ _ (by simp), carries_updateChildValues _ _ _,
    carries_notification _ _, by simp⟩

theorem carries_agree (vc : EventContentVC) (prompt : AnswerSelector) :
    ∀ write ∈ vc.agree prompt, Carries prompt.time write := by
  unfold EventContentVC.agree
  simp only [List.forall_mem_cons]
  exact ⟨carries_notification (vc.agreeNotification prompt) _, carries_updateChildValues _ _ _,
    carries_removeValue _ _, carries_updateChildValues _ _ _, by simp⟩

theorem carries_reject (vc : EventContentVC) (prompt : AnswerSelector) :
    ∀ write ∈ (vc.reject prompt).writes, Carries prompt.time write := by
  unfold EventContentVC.reject
  cases vc.notification with
  | none => simp [Outcome.trap]
  | some notification =>
    simp only [Outcome.issue_writes, List.forall_mem_cons]
    exact ⟨carries_updateChildValues _ _ _, carries_updateChildValues _ _ _,
      carries_updateChildValues _ _ _, carries_removeValue _ _,
      carries_notification (vc.rejectNotification prompt) _, by simp⟩

theorem carries_inputPressed (vc : CommentVC) (currentUser commentID content : String)
    (device : TimeZone) (now : ℚ) :
    ∀ write ∈ vc.inputPressed currentUser commentID content device now,
      Carries (CommentVC.time device now) write := by
  unfold CommentVC.inputPressed
  simp only [List.forall_mem_cons]
  exact ⟨carries_comment (vc.comment currentUser commentID content device now) _ _, by simp⟩

theorem notifications_time (vc : CommentVC) (currentUser commentID : String) (sender : GUser)
    (newID : Nat → String) (time : String) :
    ∀ notification ∈ vc.notifications currentUser commentID sender newID time,
      notification.time = time := by
  intro notification h
  unfold CommentVC.notifications at h
  split at h
  · obtain ⟨round, hround, rfl⟩ := List.mem_mapIdx.mp h
    rfl
  · rcases List.mem_cons.mp h with rfl | h
    · rfl
    · obtain ⟨round, hround, rfl⟩ := List.mem_mapIdx.mp h
      rfl

theorem carries_userFetched (vc : CommentVC) (currentUser commentID : String) (sender : GUser)
    (newID : Nat → String) (time : String) :
    ∀ write ∈ vc.userFetched currentUser commentID sender newID time, Carries time write := by
  intro write h
  unfold CommentVC.userFetched at h
  obtain ⟨notification, hmem, rfl⟩ := List.mem_map.mp h
  have htime := notifications_time vc currentUser commentID sender newID time notification hmem
  exact htime ▸ carries_notification notification _

theorem carries_removal (vc : AddEventVC) (event : Event) (newID : Nat → String) (time : String)
    (round : Nat) (member : GUser) :
    ∀ write ∈ (vc.removal event newID time round member).writes, Carries time write := by
  apply Outcome.andThen_forall
  · simp only [Outcome.issue_writes, List.forall_mem_cons]
    exact ⟨carries_removeValue _ _, carries_removeValue _ _, by simp⟩
  · cases vc.user with
    | none => simp [Outcome.trap]
    | some user =>
      simp only [Outcome.issue_writes, List.forall_mem_cons]
      exact ⟨carries_updateChildValues _ _ _, carries_notification
        (AddEventVC.removalNotification user event member (newID round) time) _, by simp⟩

theorem carries_invitation (vc : AddEventVC) (eventID : String) (newID : Nat → String)
    (time : String) (round : Nat) (member : GUser) :
    ∀ write ∈ (vc.invitation eventID newID time round member).writes, Carries time write := by
  apply Outcome.andThen_forall
  · simp only [Outcome.issue_writes, List.forall_mem_cons]
    exact ⟨carries_elsewhere _ _ (by simp), carries_elsewhere _ _ (by simp), by simp⟩
  · cases vc.user with
    | none => simp [Outcome.trap]
    | some user =>
      simp only [Outcome.issue_writes, List.forall_mem_cons]
      exact ⟨carries_notification
        (vc.invitationNotification user eventID member (newID round) time) _, by simp⟩

theorem carries_uploadEventData (vc : AddEventVC) (runtime : Runtime) (signedIn : Option String)
    (autoID : String) (newID : Nat → String) (time url : String) :
    ∀ write ∈ (vc.uploadEventData runtime signedIn autoID newID time url).writes,
      Carries time write := by
  cases signedIn with
  | none => simp [AddEventVC.uploadEventData]
  | some uid =>
    apply AddEventVC.uploadEventData_forall
    · exact fun event _ round member => carries_removal vc event newID time round member
    · exact fun round member => carries_invitation vc _ newID time round member
    · exact carries_elsewhere _ _ (by simp)

/-! Along every run the times are the texts of the clocks they are said to come from. -/

structure Stamped (timeline : Timeline) : Prop where
  prompts : ∀ prompt ∈ timeline.prompts, ∀ selector, prompt.vc.answerSelector = some selector →
    selector.time = prompt.stamp.text
  sendings : ∀ sending ∈ timeline.sendings, sending.time = sending.stamp.text
  entries : ∀ entry ∈ timeline.entries, entry.time = entry.stamp.text

theorem Stamped.file {timeline : Timeline} (hstamped : Stamped timeline) (stamp : Stamp)
    {writes : List Write} (h : ∀ write ∈ writes, Carries stamp.text write) :
    Stamped (timeline.file stamp writes) := by
  refine ⟨hstamped.prompts, hstamped.sendings, fun entry hentry => ?_⟩
  rcases List.mem_append.mp hentry with hold | hnew
  · exact hstamped.entries entry hold
  · obtain ⟨new, hmem, rfl⟩ := List.mem_map.mp hnew
    obtain ⟨write, hwrite, hcreated⟩ := List.mem_filterMap.mp hmem
    exact h write hwrite new hcreated

theorem Stamped.answer {timeline timeline' : Timeline} (hstamped : Stamped timeline) {prompt : Nat}
    {writes : EventContentVC → AnswerSelector → List Write}
    (hwrites : ∀ vc selector, ∀ write ∈ writes vc selector, Carries selector.time write)
    (h : timeline.answer prompt writes = some timeline') : Stamped timeline' := by
  unfold Timeline.answer at h
  simp only [Option.bind_eq_bind, Option.bind_eq_some_iff, Option.pure_def,
    Option.some.injEq] at h
  obtain ⟨shown, hshown, selector, hselector, rfl⟩ := h
  have htime := hstamped.prompts shown (List.mem_of_getElem? hshown) selector hselector
  have hfile := hstamped.file shown.stamp fun write hwrite =>
    htime ▸ hwrites shown.vc selector write hwrite
  exact ⟨fun p hp => hfile.prompts p (List.mem_of_mem_eraseIdx hp), hfile.sendings,
    hfile.entries⟩

theorem Stamped.step {timeline timeline' : Timeline} {action : Action}
    (hstamped : Stamped timeline) (h : timeline.step action = some timeline') :
    Stamped timeline' := by
  cases action with
  | wait later =>
    simp only [Timeline.step, Option.ite_none_right_eq_some, Option.some.injEq] at h
    exact h.2 ▸ ⟨hstamped.prompts, hstamped.sendings, hstamped.entries⟩
  | uploadEventData device vc runtime signedIn autoID newID url =>
    have heq := Option.some.inj h
    exact heq ▸ hstamped.file _ (carries_uploadEventData _ _ _ _ _ _ _)
  | dropOut device vc autoID =>
    simp only [Timeline.step, Option.ite_none_right_eq_some, Option.some.injEq] at h
    exact h.2 ▸ hstamped.file _ (carries_dropOut _ _ _)
  | showAnwserSelector device vc user notificationID =>
    have heq := Option.some.inj h
    rw [← heq]
    refine ⟨fun prompt hprompt selector hselector => ?_, hstamped.sendings, hstamped.entries⟩
    rcases List.mem_append.mp hprompt with hold | hnew
    · exact hstamped.prompts prompt hold selector hselector
    · rw [List.mem_singleton.mp hnew] at hselector ⊢
      exact (Option.some.inj hselector) ▸ rfl
  | agree prompt => exact hstamped.answer carries_agree h
  | reject prompt => exact hstamped.answer carries_reject h
  | inputPressed device vc currentUser commentID content =>
    have heq := Option.some.inj h
    have hfile := hstamped.file (timeline.stamp device)
      (carries_inputPressed vc currentUser commentID content device timeline.now.date)
    rw [← heq]
    refine ⟨hfile.prompts, fun sending hsending => ?_, hfile.entries⟩
    rcases List.mem_append.mp hsending with hold | hnew
    · exact hstamped.sendings sending hold
    · rw [List.mem_singleton.mp hnew]
      rfl
  | userFetched sending sender newID =>
    simp only [Timeline.step, Option.bind_eq_bind, Option.bind_eq_some_iff, Option.pure_def,
      Option.some.injEq] at h
    obtain ⟨sent, hsent, rfl⟩ := h
    have htime := hstamped.sendings sent (List.mem_of_getElem? hsent)
    have hfile := hstamped.file sent.stamp fun write hwrite =>
      htime ▸ carries_userFetched sent.vc sent.currentUser sent.commentID sender newID sent.time
        write hwrite
    exact ⟨hfile.prompts, fun s hs => hfile.sendings s (List.mem_of_mem_eraseIdx hs),
      hfile.entries⟩

theorem stamped_reachable {now : Moment} {timeline : Timeline}
    (h : Reachable Timeline.step { now := now } timeline) : Stamped timeline := by
  refine h.invariant Stamped ⟨?_, ?_, ?_⟩ fun _ _ _ hstamped hstep => hstamped.step hstep
  · exact fun _ hprompt => absurd hprompt List.not_mem_nil
  · exact fun _ hsending => absurd hsending List.not_mem_nil
  · exact fun _ hentry => absurd hentry List.not_mem_nil

theorem Stamped.time_lt_iff {timeline : Timeline} (hstamped : Stamped timeline) {a b : Entry}
    (ha : a ∈ timeline.entries) (hb : b ∈ timeline.entries) :
    a.time < b.time ↔ a.stamp.reading < b.stamp.reading := by
  rw [hstamped.entries a ha, hstamped.entries b hb]
  exact string_lt_iff a.stamp.made b.stamp.made a.stamp.device b.stamp.device

/-- Of two records of one list the one written in an earlier second has the smaller time. -/
def InOrder (a b : Entry) : Prop :=
  a.list = b.list → ⌊a.written.date⌋ < ⌊b.written.date⌋ → a.time < b.time

/-- Of two records of one list the one written in an earlier second was timed by a clock that
showed an earlier second. -/
def ClocksInOrder (a b : Entry) : Prop :=
  a.list = b.list → ⌊a.written.date⌋ < ⌊b.written.date⌋ → a.stamp.reading < b.stamp.reading

/-- In every run two records are in order exactly when the clocks were. -/
theorem in_order_iff {now : Moment} {timeline : Timeline}
    (h : Reachable Timeline.step { now := now } timeline) {a b : Entry}
    (ha : a ∈ timeline.entries) (hb : b ∈ timeline.entries) :
    InOrder a b ↔ ClocksInOrder a b := by
  have hlt := (stamped_reachable h).time_lt_iff ha hb
  unfold InOrder ClocksInOrder
  rw [hlt]

def bob : GUser := ⟨"bob", "bob@mail", "Bob", "bob.jpg"⟩

def partyScreen (currentUser : String) : EventContentVC where
  currentUser := currentUser
  event := ⟨"k", "alice", "Party", ["", "carol"], "2018-07-01 12:00", "Taipei", "fun", "party.jpg"⟩
  notification := none

def eight : Moment := ⟨⟨1530000000, by norm_num⟩, by norm_num⟩

def aMinutePast : Moment := ⟨⟨1530000060, by norm_num⟩, by norm_num⟩

def twoMinutesPast : Moment := ⟨⟨1530000120, by norm_num⟩, by norm_num⟩

/-- Bob sees the prompt, then Carol drops out, then Bob accepts, all in one zone. -/
def answeredLate : List Action :=
  [.showAnwserSelector .taipei (partyScreen "bob") bob "n1", .wait aMinutePast,
    .dropOut .taipei (partyScreen "carol") "n2", .wait twoMinutesPast, .agree 0]

theorem in_order_two_drop_outs :
    InOrder ⟨["notification"], (Stamp.mk .taipei eight).text, ⟨.taipei, eight⟩, eight⟩
      ⟨["notification"], (Stamp.mk .taipei aMinutePast).text, ⟨.taipei, aMinutePast⟩,
        aMinutePast⟩ := by
  have hrun : Reachable Timeline.step { now := eight }
      { now := aMinutePast, entries :=
        [⟨["notification"], (Stamp.mk .taipei eight).text, ⟨.taipei, eight⟩, eight⟩,
          ⟨["notification"], (Stamp.mk .taipei aMinutePast).text, ⟨.taipei, aMinutePast⟩,
            aMinutePast⟩] } :=
    ⟨[.dropOut .taipei (partyScreen "carol") "n1", .wait aMinutePast,
      .dropOut .taipei (partyScreen "carol") "n2"], rfl⟩
  refine (in_order_iff hrun (by simp) (by simp)).mpr fun _ _ => ?_
  decide

/-- An invitation accepted late is filed under the time at which the prompt was shown. -/
theorem accepted_out_of_order :
    ∃ timeline, exec Timeline.step { now := eight } answeredLate = some timeline ∧
      ∃ a ∈ timeline.entries, ∃ b ∈ timeline.entries, ¬ InOrder a b := by
  refine ⟨{ now := twoMinutesPast, entries :=
        [⟨["notification"], (Stamp.mk .taipei aMinutePast).text, ⟨.taipei, aMinutePast⟩,
            aMinutePast⟩,
          ⟨["notification"], (Stamp.mk .taipei eight).text, ⟨.taipei, eight⟩,
            twoMinutesPast⟩] }, rfl, _, List.mem_cons_self, _,
    List.mem_cons_of_mem _ List.mem_cons_self, ?_⟩
  intro h
  have htime := h rfl (by decide)
  unfold Stamp.text at htime
  rw [string_lt_iff] at htime
  exact absurd htime (by decide)

end GetTogether.Dates
