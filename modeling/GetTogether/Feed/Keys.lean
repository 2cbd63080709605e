import GetTogether.Feed.Notices
import GetTogether.World.LostUpdates

/-! Keys that are handed out before they are used: a prompt holds the one of the answer,
a comment the one of the notification to the organiser. No two hold the same one, and
no notification is stored under a key that is still held or not handed out yet. -/
namespace GetTogether

open Realtime Roster

theorem EventContentVC.Callback.notification_eq {db : Store} {vc vc' : EventContentVC}
    (h : vc.Callback db vc') : vc'.notification = vc.notification := by
  cases h with
  | eventList h =>
    obtain ⟨lists, -, rfl⟩ := queryEventList_eq_some h
    rfl
  | user _ h =>
    obtain rfl | ⟨user, -, -, -, rfl⟩ | rfl := userFetched_eq_some h <;> rfl
  | users h =>
    obtain ⟨users, -, ⟨-, rfl⟩ | ⟨-, rfl⟩⟩ := queryUserData_eq_some h <;> rfl
  | rejected => rfl

theorem World.Step.prompt_cases {ids : AutoId} {w w' : World} {a : GetTogether.Action}
    (h : World.Step ids w a w') {i : Nat} {vc' : EventContentVC} {prompt : AnswerSelector}
    (hvc' : w'.contentVCs[i]? = some vc') (hprompt : vc'.answerSelector = some prompt) :
    (∃ vc, w.contentVCs[i]? = some vc ∧ vc.answerSelector = some prompt ∧ a ≠ .agree i ∧
      a ≠ .reject i) ∨
    (∃ fetch time, a = .userFetched i fetch time ∧ prompt.notificationID = ids.key w.drawn ∧
      w'.drawn = w.drawn + 1) := by
  cases h with
  | openEvent hopen _ =>
    rcases getElem?_concat_cases hvc' with hold | rfl
    · exact .inl ⟨vc', hold, hprompt, by simp, by simp⟩
    · obtain ⟨event, notification, -, rfl⟩ := opened_eq_some hopen
      exact absurd hprompt (by simp)
  | queryEventList hvc hload =>
    obtain ⟨lists, -, rfl⟩ := EventContentVC.queryEventList_eq_some hload
    rcases getElem?_set_cases hvc hvc' with ⟨rfl, rfl, hold⟩ | ⟨-, hold⟩
    · exact .inl ⟨_, hold, hprompt, by simp, by simp⟩
    · exact .inl ⟨vc', hold, hprompt, by simp, by simp⟩
  | @userFetched screen fetch time vc _ eventList hvc hlist hload =>
    rcases getElem?_set_cases hvc hvc' with ⟨rfl, rfl, hold⟩ | ⟨-, hold⟩
    · rcases EventContentVC.userFetched_eq_some hload with rfl | ⟨user, -, -, -, rfl⟩ | rfl
      · exact .inl ⟨_, hold, hprompt, by simp, by simp⟩
      · obtain rfl := Option.some.inj hprompt
        exact .inr ⟨fetch, time, rfl, rfl, rfl⟩
      · exact .inl ⟨_, hold, hprompt, by simp, by simp⟩
    · exact .inl ⟨vc', hold, hprompt, by simp, by simp⟩
  | queryUserData hvc hload =>
    obtain ⟨users, -, ⟨-, rfl⟩ | ⟨-, rfl⟩⟩ := EventContentVC.queryUserData_eq_some hload <;>
      rcases getElem?_set_cases hvc hvc' with ⟨rfl, rfl, hold⟩ | ⟨-, hold⟩
    · exact .inl ⟨_, hold, hprompt, by simp, by simp⟩
    · exact .inl ⟨vc', hold, hprompt, by simp, by simp⟩
    · exact .inl ⟨_, hold, hprompt, by simp, by simp⟩
    · exact .inl ⟨vc', hold, hprompt, by simp, by simp⟩
  | agree hvc _ =>
    rcases getElem?_set_cases hvc hvc' with ⟨rfl, rfl, -⟩ | ⟨hne, hold⟩
    · exact absurd hprompt (by simp [EventContentVC.agreed])
    · exact .inl ⟨vc', hold, hprompt, fun ha => hne (Action.agree.inj ha), by simp⟩
  | reject hvc _ _ =>
    rcases getElem?_set_cases hvc hvc' with ⟨rfl, rfl, -⟩ | ⟨hne, hold⟩
    · exact absurd hprompt (by simp [EventContentVC.rejected])
    · exact .inl ⟨vc', hold, hprompt, by simp, fun ha => hne (Action.reject.inj ha)⟩
  | _ => exact .inl ⟨vc', hvc', hprompt, by simp, by simp⟩

namespace Feed

/-- An event screen, for its prompt, or a comment, for its sender's fetch. -/
abbrev Holder := Nat ⊕ Nat

/-- The key that is held for a notification still to be written. -/
def held (f : Feed) : Holder → Option String
  | .inl screen =>
    (f.world.contentVCs[screen]?).bind fun vc => vc.answerSelector.map (·.notificationID)
  | .inr i => (f.inputs[i]?).bind fun input => if input.fetched then none else some input.commentID

def spends : Action → Option Holder
  | .base (.agree screen) => some (.inl screen)
  | .base (.reject screen) => some (.inl screen)
  | .senderFetched i => some (.inr i)
  | _ => none

def receives (f : Feed) : Action → Option Holder
  | .base (.userFetched screen _ _) => some (.inl screen)
  | .inputPressed .. => some (.inr f.inputs.length)
  | _ => none

variable {ids : AutoId} {f f' : Feed} {a : Action}

theorem held_prompt {screen : Nat} {key : String} : f.held (.inl screen) = some key ↔
    ∃ vc prompt, f.world.contentVCs[screen]? = some vc ∧ vc.answerSelector = some prompt ∧
      prompt.notificationID = key := by
  simp [held, Option.bind_eq_some_iff]

theorem held_input {i : Nat} {key : String} : f.held (.inr i) = some key ↔
    ∃ input, f.inputs[i]? = some input ∧ input.fetched = false ∧ input.commentID = key := by
  simp [held, Option.bind_eq_some_iff]

theorem Step.contentVCs_eq (h : Step ids f a f') (hbase : ∀ action, a ≠ .base action) :
    f'.world.contentVCs = f.world.contentVCs := by
  obtain ⟨count, heq⟩ := h.world_eq hbase
  rw [heq]
  rfl

theorem Step.inputs_eq (h : Step ids f a f') :
    (f'.inputs = f.inputs ∧ ∀ i, a ≠ .senderFetched i) ∨
    (∃ input, f'.inputs = f.inputs ++ [input] ∧ input.commentID = ids.key f.world.drawn ∧
      f.world.drawn < f'.world.drawn ∧ receives f a = some (.inr f.inputs.length)) ∨
    ∃ i input, a = .senderFetched i ∧ f.inputs[i]? = some input ∧
      f'.inputs = f.inputs.set i { input with fetched := true } := by
  cases h with
  | inputPressed _ _ => exact .inr (.inl ⟨_, rfl, rfl, Nat.lt_succ_self _, rfl⟩)
  | @senderFetched i input _ hinput _ _ => exact .inr (.inr ⟨i, input, rfl, hinput, rfl⟩)
  | _ => exact .inl ⟨rfl, nofun⟩

/-- A key that is held was held before and is not spent, or has just been handed out. -/
theorem Step.held_cases (h : Step ids f a f') {holder : Holder} {key : String}
    (hheld : f'.held holder = some key) :
    (f.held holder = some key ∧ spends a ≠ some holder) ∨
      (key = ids.key f.world.drawn ∧ f.world.drawn < f'.world.drawn ∧
        receives f a = some holder) := by
  cases holder with
  | inl screen =>
    obtain ⟨vc', prompt, hvc', hprompt, rfl⟩ := held_prompt.mp hheld
    by_cases hbase : ∃ action, a = .base action
    · obtain ⟨action, rfl⟩ := hbase
      cases h with
      | base h =>
        rcases h.prompt_cases hvc' hprompt with ⟨vc, hvc, hold, hagree, hreject⟩ |
          ⟨fetch, time, rfl, hkey, hdrawn⟩
        · refine .inl ⟨held_prompt.mpr ⟨vc, prompt, hvc, hold, rfl⟩, fun hspends => ?_⟩
          cases action with
          | agree other => exact hagree (congrArg _ (Sum.inl.inj (Option.some.inj hspends)))
          | reject other => exact hreject (congrArg _ (Sum.inl.inj (Option.some.inj hspends)))
          | _ => cases hspends
        · exact .inr ⟨hkey, hdrawn ▸ Nat.lt_succ_self _, rfl⟩
    · have hbase : ∀ action, a ≠ .base action := fun action ha => hbase ⟨action, ha⟩
      rw [h.contentVCs_eq hbase] at hvc'
      refine .inl ⟨held_prompt.mpr ⟨vc', prompt, hvc', hprompt, rfl⟩, fun hspends => ?_⟩
      cases a with
      | base action => exact hbase action rfl
      | _ => cases hspends
  | inr i =>
    obtain ⟨input, hinput, hfetched, rfl⟩ := held_input.mp hheld
    rcases h.inputs_eq with ⟨heq, hother⟩ | ⟨new, heq, hkey, hlt, hreceives⟩ |
      ⟨j, old, rfl, hold, heq⟩
    · rw [heq] at hinput
      refine .inl ⟨held_input.mpr ⟨input, hinput, hfetched, rfl⟩, fun hspends => ?_⟩
      cases a with
      | senderFetched j => exact hother j rfl
      | base action => cases action <;> cases hspends
      | _ => cases hspends
    · rw [heq, List.getElem?_append] at hinput
      split at hinput
      · next hi =>
        refine .inl ⟨held_input.mpr ⟨input, hinput, hfetched, rfl⟩, fun hspends => ?_⟩
        cases a with
        | base action => cases action <;> cases hspends
        | inputPressed _ _ _ _ => cases hspends
        | _ => cases hreceives
      · next hi =>
        have hlength := (List.getElem?_eq_some_iff.mp hinput).1
        obtain rfl := List.mem_singleton.mp (List.mem_of_getElem? hinput)
        have hlast : i = f.inputs.length := by
          rw [List.length_singleton] at hlength
          omega
        exact .inr ⟨hkey, hlt, hlast ▸ hreceives⟩
    · rw [heq] at hinput
      rcases World.getElem?_set_cases hold hinput with ⟨rfl, rfl, -⟩ | ⟨hne, hsame⟩
      · simp at hfetched
      · refine .inl ⟨held_input.mpr ⟨input, hsame, hfetched, rfl⟩, fun hspends => ?_⟩
        exact hne (Sum.inr.inj (Option.some.inj hspends))

theorem mem_told_ids {input : Input} {sender : GUser} {newID : Nat → String} {key : String}
    (hkey : key ∈ (input.vc.notifications input.currentUser input.commentID sender newID
      input.time).map (·.notificationID)) :
    key = input.commentID ∨ ∃ n < input.drawn, key = newID n := by
  unfold CommentVC.notifications at hkey
  split at hkey
  · next hself =>
    rw [CommentVC.map_mapIdx_notificationID] at hkey
    obtain ⟨n, hn, rfl⟩ := List.mem_map.mp hkey
    refine .inr ⟨n, ?_, rfl⟩
    simpa [Input.drawn, hself] using hn
  · next hother =>
    rw [List.map_cons, CommentVC.map_mapIdx_notificationID, List.mem_cons] at hkey
    rcases hkey with hkey | hkey
    · exact .inl hkey
    · obtain ⟨n, hn, rfl⟩ := List.mem_map.mp hkey
      refine .inr ⟨n, ?_, rfl⟩
      rw [Input.drawn, if_neg hother]
      exact List.mem_range.mp hn

/-- A notification is stored under a new key, or under one that was held for it. -/
theorem Step.posted_cases (h : Step ids f a f') {key : String}
    (hkey : key ∈ notificationLedger.posted (f.issued ids a)) :
    (receives f a = none ∧ ∃ n, f.world.drawn ≤ n ∧ n < f'.world.drawn ∧ key = ids.key n) ∨
      ∃ holder, spends a = some holder ∧ f.held holder = some key := by
  cases h with
  | @base action world h =>
    simp only [issued] at hkey
    cases h with
    | agree hvc hprompt =>
      simp only [World.issued, hvc, hprompt] at hkey
      obtain rfl := List.mem_singleton.mp hkey
      exact .inr ⟨_, rfl, held_prompt.mpr ⟨_, _, hvc, hprompt, rfl⟩⟩
    | reject hvc hprompt hnotification =>
      simp only [World.issued, hvc, hprompt, EventContentVC.reject, hnotification] at hkey
      obtain rfl := List.mem_singleton.mp hkey
      exact .inr ⟨_, rfl, held_prompt.mpr ⟨_, _, hvc, hprompt, rfl⟩⟩
    | dropOut hvc _ _ =>
      simp only [World.issued, hvc] at hkey
      obtain rfl := List.mem_singleton.mp hkey
      exact .inl ⟨rfl, f.world.drawn, Nat.le_refl _, Nat.lt_succ_self _, rfl⟩
    | @uploaded screen runtime time url autoID vc hvc hphase =>
      simp only [World.issued, hvc, hphase] at hkey
      have hnew := (posted_uploadEventData vc runtime (fun n => ids.key (f.world.drawn + n)) time
        autoID url vc.currentUser).subset hkey
      obtain ⟨n, hn, rfl⟩ := List.mem_map.mp hnew
      rw [List.mem_range] at hn
      exact .inl ⟨rfl, _, Nat.le_add_right _ n, Nat.add_lt_add_left hn _, rfl⟩
    | _ => exact absurd hkey List.not_mem_nil
  | @table screen action s s' hs _ _ =>
    simp only [issued, hs] at hkey
    rcases written_eq s action with heq | ⟨row, comment, -, -, -, heq⟩ <;>
      exact absurd (heq ▸ hkey) List.not_mem_nil
  | inputPressed hs huser =>
    simp only [issued, hs, huser] at hkey
    exact absurd hkey List.not_mem_nil
  | @senderFetched i input writes hinput hfetched hwrites =>
    simp only [issued, hinput, hwrites, Option.getD_some] at hkey
    rcases Input.writes_eq_some hwrites with rfl | ⟨sender, -, rfl⟩
    · exact absurd hkey List.not_mem_nil
    · rw [CommentVC.userFetched_eq, posted_told] at hkey
      rcases mem_told_ids hkey with rfl | ⟨n, hn, rfl⟩
      · exact .inr ⟨_, rfl, held_input.mpr ⟨input, hinput, hfetched, rfl⟩⟩
      · exact .inl ⟨rfl, _, Nat.le_add_right _ n, Nat.add_lt_add_left hn _, rfl⟩
  | didSelectRow hinbox hrow =>
    simp only [issued, hinbox, NotificationVC.didSelectRowAt, hrow] at hkey
    exact absurd hkey List.not_mem_nil
  | _ => exact absurd hkey List.not_mem_nil

theorem AutoId.injective_from (ids : AutoId) (drawn : Nat) :
    Function.Injective fun n => ids.key (drawn + n) := by
  intro m n h
  have hsame := ids.injective h
  omega

theorem Step.posted_nodup (h : Step ids f a f')
    (hheld : ∀ holder key, f.held holder = some key → ∃ n < f.world.drawn, key = ids.key n) :
    (notificationLedger.posted (f.issued ids a)).Nodup := by
  cases h with
  | @base action world h =>
    simp only [issued]
    cases h with
    | agree hvc hprompt =>
      simp only [World.issued, hvc, hprompt]
      exact List.nodup_singleton _
    | reject hvc hprompt hnotification =>
      simp only [World.issued, hvc, hprompt, EventContentVC.reject, hnotification]
      exact List.nodup_singleton _
    | dropOut hvc _ _ =>
      simp only [World.issued, hvc]
      exact List.nodup_singleton _
    | @uploaded screen runtime time url autoID vc hvc hphase =>
      simp only [World.issued, hvc, hphase]
      have hnodup := @List.nodup_range ((vc.removedMembers runtime).length +
        (vc.editedMembers runtime).length)
      exact (hnodup.map (AutoId.injective_from ids f.world.drawn)).sublist
        (posted_uploadEventData vc runtime _ time autoID url vc.currentUser)
    | _ => exact List.nodup_nil
  | @table screen action s s' hs _ _ =>
    simp only [issued, hs]
    rcases written_eq s action with heq | ⟨row, comment, -, -, -, heq⟩ <;> rw [heq] <;>
      exact List.nodup_nil
  | inputPressed hs huser =>
    simp only [issued, hs, huser]
    exact List.nodup_nil
  | @senderFetched i input writes hinput hfetched hwrites =>
    simp only [issued, hinput, hwrites, Option.getD_some]
    rcases Input.writes_eq_some hwrites with rfl | ⟨sender, -, rfl⟩
    · exact List.nodup_nil
    · rw [CommentVC.userFetched_eq, posted_told]
      apply CommentVC.notifications_notificationID_nodup
      · exact AutoId.injective_from ids f.world.drawn
      · intro round hround
        obtain ⟨n, hn, hkey⟩ :=
          hheld _ _ (held_input.mpr ⟨input, hinput, hfetched, rfl⟩)
        have hsame := ids.injective (hround.trans hkey)
        omega
  | didSelectRow hinbox hrow =>
    simp only [issued, hinbox, NotificationVC.didSelectRowAt, hrow]
    exact List.nodup_nil
  | _ => exact List.nodup_nil

end Feed

end GetTogether
