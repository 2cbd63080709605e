import GetTogether.Roster.Intent
import GetTogether.World.Copies

/-! Whether an accept, a drop out or a removal can be undone by someone else's write.
Every member array is written from the copy its screen holds, so it happens exactly
when that copy is out of date about a user the action is not about. -/
namespace GetTogether

open Realtime Roster

namespace Roster

theorem submission_meant (vc : AddEventVC) (runtime : Runtime) (eventID : String)
    {rewrite : Rewrite String String} (h : (submission vc runtime eventID).rewrite = some rewrite) :
    rewrite.event = eventID ∧ rewrite.written = vc.finalMemberIDs runtime ∧
      rewrite.meant = removedIDs vc runtime ∧ rewrite.wanted = false := by
  unfold submission at h
  split at h
  · cases h
    exact ⟨rfl, rfl, rfl, rfl⟩
  · cases h
  · cases h
  · next hremoved _ =>
    cases h
    exact ⟨rfl, rfl, hremoved.symm, rfl⟩

end Roster

namespace World

variable {ids : AutoId} {w w' : World} {a : Action}

def note (log : Log String String) (w : World) (a : Action) : Log String String :=
  (w.change a).note log

theorem getElem?_set_cases {α : Type} {items : List α} {k i : Nat} {old new item : α}
    (hold : items[k]? = some old) (hitem : (items.set k new)[i]? = some item) :
    (k = i ∧ item = new ∧ items[i]? = some old) ∨ (k ≠ i ∧ items[i]? = some item) := by
  by_cases hi : k = i
  · subst hi
    rw [List.getElem?_set_self (List.getElem?_eq_some_iff.mp hold).1] at hitem
    exact .inl ⟨rfl, (Option.some.inj hitem).symm, hold⟩
  · rw [List.getElem?_set_ne hi] at hitem
    exact .inr ⟨hi, hitem⟩

theorem getElem?_concat_cases {α : Type} {items : List α} {i : Nat} {new item : α}
    (hitem : (items ++ [new])[i]? = some item) : items[i]? = some item ∨ item = new := by
  rw [List.getElem?_append] at hitem
  split at hitem
  · exact .inl hitem
  · exact .inr (List.mem_singleton.mp (List.mem_of_getElem? hitem))

/-- The phase of uploading is entered by pressing done, with a key just drawn, and left
when the upload completes. -/
theorem Step.uploading (h : Step ids w a w') {i : Nat} {vc' : AddEventVC} {autoID : String}
    (hvc' : w'.addVCs[i]? = some vc') (hphase : vc'.phase = .uploading autoID) :
    (∃ vc, w.addVCs[i]? = some vc ∧ vc.phase = .uploading autoID ∧ vc.event = vc'.event ∧
      ∀ runtime time url, a ≠ .uploaded i runtime time url) ∨
    (a = .done i ∧ autoID = ids.key w.drawn) := by
  have happend : ∀ {new : AddEventVC}, new.phase = .editing →
      (w.addVCs ++ [new])[i]? = some vc' → w.addVCs[i]? = some vc' := by
    intro new hnew happend
    apply (getElem?_concat_cases happend).resolve_right
    intro heq
    rw [heq, hnew] at hphase
    exact absurd hphase nofun
  have hediting : ∀ {new : AddEventVC}, new.phase = .editing → vc' ≠ new := by
    rintro new hnew rfl
    rw [hnew] at hphase
    exact absurd hphase nofun
  cases h with
  | newEvent _ => exact .inl ⟨vc', happend rfl hvc', hphase, rfl, nofun⟩
  | editEvent _ _ => exact .inl ⟨vc', happend rfl hvc', hphase, rfl, nofun⟩
  | @queryOrganiserData screen vc _ hvc hload =>
    obtain ⟨user, rfl⟩ := AddEventVC.queryOrganiserData_eq_some hload
    rcases getElem?_set_cases hvc hvc' with ⟨rfl, rfl, hold⟩ | ⟨-, hold⟩
    · exact .inl ⟨vc, hold, hphase, rfl, nofun⟩
    · exact .inl ⟨vc', hold, hphase, rfl, nofun⟩
  | @didUpdateMember screen vc user hvc hedit _ _ =>
    rcases getElem?_set_cases hvc hvc' with ⟨rfl, hnew, -⟩ | ⟨-, hold⟩
    · refine absurd hnew (hediting ?_)
      rcases AddEventVC.didUpdateMember_eq vc user with heq | ⟨-, -, heq⟩ <;> rw [heq] <;>
        exact hedit
    · exact .inl ⟨vc', hold, hphase, rfl, nofun⟩
  | deleteData hvc hedit hdelete =>
    obtain ⟨removed, -, rfl⟩ := AddEventVC.deleteData_eq_some hdelete
    rcases getElem?_set_cases hvc hvc' with ⟨rfl, hnew, -⟩ | ⟨-, hold⟩
    · exact absurd hnew (hediting hedit)
    · exact .inl ⟨vc', hold, hphase, rfl, nofun⟩
  | fillIn hvc hedit =>
    rcases getElem?_set_cases hvc hvc' with ⟨rfl, hnew, -⟩ | ⟨-, hold⟩
    · exact absurd hnew (hediting hedit)
    · exact .inl ⟨vc', hold, hphase, rfl, nofun⟩
  | @done screen vc hvc hedit =>
    rcases getElem?_set_cases hvc hvc' with ⟨rfl, rfl, -⟩ | ⟨-, hold⟩
    · refine .inr ⟨rfl, ?_⟩
      unfold AddEventVC.done at hphase
      split at hphase
      · exact (Phase.uploading.inj hphase).symm
      · exact absurd (hedit.symm.trans hphase) nofun
    · exact .inl ⟨vc', hold, hphase, rfl, nofun⟩
  | @uploaded screen _ _ _ _ vc hvc hup =>
    rcases getElem?_set_cases hvc hvc' with ⟨rfl, rfl, -⟩ | ⟨hne, hold⟩
    · exact absurd hphase nofun
    · refine .inl ⟨vc', hold, hphase, rfl, ?_⟩
      intro runtime time url heq
      cases heq
      exact hne rfl
  | _ => exact .inl ⟨vc', hvc', hphase, rfl, nofun⟩

/-- No intent, no stored member and no copy mentions the event yet. -/
structure Unused (log : Log String String) (w : World) (eventID : String) : Prop where
  log : ∀ uid, log eventID uid = none
  stored : (tables w.db).memberIDs eventID = []
  held : ∀ memberIDs, ¬w.Held eventID memberIDs

theorem Step.rewrite_event (h : Step ids w a w') {rewrite : Rewrite String String}
    (hrewrite : (w.change a).rewrite = some rewrite) :
    (∃ memberIDs, w.Held rewrite.event memberIDs) ∨
      ∃ screen runtime time url vc, a = .uploaded screen runtime time url ∧
        w.addVCs[screen]? = some vc ∧ vc.phase = .uploading rewrite.event ∧ vc.event = none := by
  cases h with
  | agree hvc hprompt =>
    simp only [change, hvc, Change.rewrite, Option.some.injEq] at hrewrite
    subst hrewrite
    exact .inl ⟨_, .content (List.mem_of_getElem? hvc)⟩
  | dropOut hvc _ _ =>
    simp only [change, hvc, Change.rewrite, Option.some.injEq] at hrewrite
    subst hrewrite
    exact .inl ⟨_, .content (List.mem_of_getElem? hvc)⟩
  | reject hvc _ _ => simp [change, hvc, Change.rewrite] at hrewrite
  | @uploaded screen runtime time url autoID vc hvc hphase =>
    simp only [change, hvc, hphase] at hrewrite
    have hevent := (submission_meant vc runtime _ hrewrite).1
    cases hedit : vc.event with
    | some event =>
      rw [hevent, AddEventVC.submittedID, hedit]
      exact .inl ⟨_, .add (List.mem_of_getElem? hvc) hedit⟩
    | none =>
      rw [AddEventVC.submittedID, hedit] at hevent
      exact .inr ⟨screen, runtime, time, url, vc, rfl, hvc, hevent ▸ hphase, hedit⟩
  | _ => cases hrewrite

theorem Unused.step {log : Log String String} {eventID : String} (hun : Unused log w eventID)
    (hw : w.db.Within Schema) (h : Step ids w a w')
    (hnew : ∀ screen runtime time url vc, a = .uploaded screen runtime time url →
      w.addVCs[screen]? = some vc → vc.phase = .uploading eventID → vc.event ≠ none) :
    Unused (w.note log a) w' eventID := by
  have hother : ∀ rewrite, (w.change a).rewrite = some rewrite → eventID ≠ rewrite.event := by
    rintro rewrite hrewrite rfl
    rcases h.rewrite_event hrewrite with ⟨memberIDs, hheld⟩ |
      ⟨screen, runtime, time, url, vc, ha, hvc, hphase, hevent⟩
    · exact hun.held memberIDs hheld
    · exact hnew screen runtime time url vc ha hvc hphase hevent
  refine ⟨fun uid => ?_, ?_, fun memberIDs hheld => ?_⟩
  · unfold note Change.note
    cases hrewrite : (w.change a).rewrite with
    | none => exact hun.log uid
    | some rewrite => simp [Rewrite.note, hother rewrite hrewrite, hun.log uid]
  · rw [h.tables_eq, Change.memberIDs_apply]
    cases hrewrite : (w.change a).rewrite with
    | none => exact hun.stored
    | some rewrite => simp [Function.update_of_ne (hother rewrite hrewrite), hun.stored]
  · refine h.forall_held (P := fun e _ => e ≠ eventID) hw ?_ ?_ ?_ eventID memberIDs hheld rfl
    · rintro e m hold rfl
      exact hun.held m hold
    · rintro e m hstored rfl
      have hempty : m = [] := by simpa [tables, hstored] using hun.stored
      subst hempty
      exact Store.get_ne_array_nil _ _ (Store.array?_eq_some.mp hstored)
    · rintro screen vc - hvc rfl
      exact hun.held _ (.content (List.mem_of_getElem? hvc))

theorem Step.meant_ne_empty (h : Step ids w a w') (hw : w.db.Within Schema) (hacc : Accounts w)
    {rewrite : Rewrite String String} (hrewrite : (w.change a).rewrite = some rewrite) :
    "" ∉ rewrite.meant := by
  intro hmeant
  cases h with
  | agree hvc hprompt =>
    simp only [change, hvc, Change.rewrite, Option.some.injEq] at hrewrite
    subst hrewrite
    exact (hacc.content _ (List.mem_of_getElem? hvc)).1 (List.mem_singleton.mp hmeant).symm
  | dropOut hvc _ _ =>
    simp only [change, hvc, Change.rewrite, Option.some.injEq] at hrewrite
    subst hrewrite
    exact (hacc.content _ (List.mem_of_getElem? hvc)).1 (List.mem_singleton.mp hmeant).symm
  | reject hvc _ _ => simp [change, hvc, Change.rewrite] at hrewrite
  | @uploaded screen runtime time url autoID vc hvc hphase =>
    simp only [change, hvc, hphase] at hrewrite
    rw [(submission_meant vc runtime _ hrewrite).2.2.1] at hmeant
    obtain ⟨user, huser, hid⟩ := List.mem_map.mp (mem_removedIDs vc runtime hmeant).2.1
    exact ((hacc.add vc (List.mem_of_getElem? hvc)).2 user (by simp [huser])).ne_empty hw hid
  | _ => cases hrewrite

theorem Step.meant_written (h : Step ids w a w') {rewrite : Rewrite String String}
    (hrewrite : (w.change a).rewrite = some rewrite) :
    ∀ uid ∈ rewrite.meant, (uid ∈ rewrite.written ↔ rewrite.wanted = true) := by
  cases h with
  | agree hvc hprompt =>
    simp only [change, hvc, Change.rewrite, Option.some.injEq] at hrewrite
    subst hrewrite
    simp
  | dropOut hvc _ _ =>
    simp only [change, hvc, Change.rewrite, Option.some.injEq] at hrewrite
    subst hrewrite
    simp
  | reject hvc _ _ => simp [change, hvc, Change.rewrite] at hrewrite
  | @uploaded screen runtime time url autoID vc hvc hphase =>
    simp only [change, hvc, hphase] at hrewrite
    obtain ⟨-, hwritten, hmeant, hwanted⟩ := submission_meant vc runtime _ hrewrite
    intro uid huid
    rw [hmeant] at huid
    rw [hwritten, hwanted]
    obtain ⟨event, hevent⟩ := Option.isSome_iff_exists.mp (mem_removedIDs vc runtime huid).1
    simp [mem_finalMemberIDs vc runtime hevent, huid]
  | _ => cases hrewrite

/-- What the intents, the database and the copies always have in common. -/
structure Chronicle (ids : AutoId) (log : Log String String) (w : World) : Prop where
  noone : ∀ eventID, log eventID "" = none
  stored : ∀ eventID, ∀ uid ∈ (tables w.db).memberIDs eventID, uid ≠ "" → log eventID uid ≠ none
  held : ∀ eventID memberIDs, w.Held eventID memberIDs →
    ∀ uid ∈ memberIDs, uid ≠ "" → log eventID uid ≠ none
  undrawn : ∀ n, w.drawn ≤ n → Unused log w (ids.key n)
  uploading : ∀ (i : Nat) vc autoID, w.addVCs[i]? = some vc → vc.phase = .uploading autoID →
    (∃ n < w.drawn, autoID = ids.key n) ∧ (vc.event = none → Unused log w autoID)
  distinct : ∀ (i j : Nat) vc vc' autoID, w.addVCs[i]? = some vc → w.addVCs[j]? = some vc' →
    vc.phase = .uploading autoID → vc'.phase = .uploading autoID → i = j

theorem Step.drawn_le (h : Step ids w a w') : w.drawn ≤ w'.drawn := by
  cases h <;> simp [draw, setContent, setAdd, write]

theorem Chronicle.empty (ids : AutoId) : Chronicle ids (fun _ _ => none) World.empty where
  noone _ := rfl
  stored eventID uid h := by simp [tables, World.empty, Store.array?] at h
  held eventID memberIDs h := by
    rcases h with ⟨vc, hvc, -⟩ | ⟨vc, hvc, -⟩ <;> exact absurd hvc List.not_mem_nil
  undrawn n _ := by
    refine ⟨fun _ => rfl, by simp [tables, World.empty, Store.array?], fun memberIDs h => ?_⟩
    rcases h with ⟨vc, hvc, -⟩ | ⟨vc, hvc, -⟩ <;> exact absurd hvc List.not_mem_nil
  uploading i vc autoID h := absurd h (by simp [World.empty])
  distinct i j vc vc' autoID h := absurd h (by simp [World.empty])

section Steps

variable {log : Log String String} (hchr : Chronicle ids log w) (hw : w.db.Within Schema)

include hchr hw

theorem Chronicle.undrawn_step (h : Step ids w a w') {n : Nat} (hn : w.drawn ≤ n) :
    Unused (w.note log a) w' (ids.key n) := by
  apply (hchr.undrawn n hn).step hw h
  intro screen _ _ _ vc _ hvc hphase _
  obtain ⟨m, hm, heq⟩ := (hchr.uploading screen vc _ hvc hphase).1
  have hsame := ids.injective heq
  omega

theorem Chronicle.uploading_step (h : Step ids w a w') {i : Nat} {vc' : AddEventVC}
    {autoID : String} (hvc' : w'.addVCs[i]? = some vc') (hphase' : vc'.phase = .uploading autoID) :
    (∃ n < w'.drawn, autoID = ids.key n) ∧
      (vc'.event = none → Unused (w.note log a) w' autoID) := by
  rcases h.uploading hvc' hphase' with ⟨vc, hvc, hphase, hevent, hstays⟩ | ⟨rfl, rfl⟩
  · obtain ⟨⟨n, hn, hkey⟩, hunused⟩ := hchr.uploading i vc autoID hvc hphase
    have hle := h.drawn_le
    refine ⟨⟨n, by omega, hkey⟩, fun hnone => ?_⟩
    apply (hunused (hevent.trans hnone)).step hw h
    rintro screen runtime time url other rfl hother hup -
    obtain rfl := hchr.distinct screen i other vc autoID hother hvc hup hphase
    exact hstays runtime time url rfl
  · have hdrawn : w'.drawn = w.drawn + 1 := by
      cases h with
      | done _ _ => rfl
    exact ⟨⟨w.drawn, by omega, rfl⟩, fun _ => hchr.undrawn_step hw h (Nat.le_refl _)⟩

omit hw in
theorem Chronicle.distinct_step (h : Step ids w a w') {i j : Nat} {vc vc' : AddEventVC}
    {autoID : String} (hvc : w'.addVCs[i]? = some vc) (hvc' : w'.addVCs[j]? = some vc')
    (hphase : vc.phase = .uploading autoID) (hphase' : vc'.phase = .uploading autoID) : i = j := by
  have hfresh : ∀ (k : Nat) old, w.addVCs[k]? = some old → old.phase ≠ .uploading (ids.key w.drawn) := by
    intro k old hold hup
    obtain ⟨m, hm, heq⟩ := (hchr.uploading k old _ hold hup).1
    have hsame := ids.injective heq
    omega
  rcases h.uploading hvc hphase with ⟨old, hold, hup, -⟩ | ⟨ha, hkey⟩
  · rcases h.uploading hvc' hphase' with ⟨old', hold', hup', -⟩ | ⟨-, hkey'⟩
    · exact hchr.distinct i j old old' autoID hold hold' hup hup'
    · exact absurd (hkey' ▸ hup) (hfresh i old hold)
  · rcases h.uploading hvc' hphase' with ⟨old', hold', hup', -⟩ | ⟨ha', -⟩
    · exact absurd (hkey ▸ hup') (hfresh j old' hold')
    · exact Action.done.inj (ha.symm.trans ha')

theorem Chronicle.step (hacc : Accounts w) (h : Step ids w a w') :
    Chronicle ids (w.note log a) w' := by
  have hmembers := h.forall_member hw hchr.held hchr.stored
    (fun _ _ hlog => Change.note_ne_none (w.change a) hlog)
    (fun vc _ _ hchange => by simp [hchange, Change.note, Change.rewrite, Rewrite.note])
  refine ⟨fun eventID => ?_, hmembers.1, hmembers.2, ?_, ?_, ?_⟩
  · unfold note Change.note
    cases hrewrite : (w.change a).rewrite with
    | none => exact hchr.noone eventID
    | some rewrite =>
      have hmeant := h.meant_ne_empty hw hacc hrewrite
      simp [Rewrite.note, hmeant, hchr.noone eventID]
  · exact fun n hn => hchr.undrawn_step hw h (h.drawn_le.trans hn)
  · exact fun i vc autoID hvc hphase => hchr.uploading_step hw h hvc hphase
  · exact fun i j vc vc' autoID hvc hvc' hphase hphase' =>
      hchr.distinct_step h hvc hvc' hphase hphase'

end Steps

/-- The copy names the same members as the database, the given users apart. -/
def Agrees (w : World) (copy : Event) (named : List String) : Prop :=
  ∀ uid, uid ≠ "" → uid ∉ named → (uid ∈ copy.memberIDs ↔
    uid ∈ (w.db.array? ["event", copy.eventID, "memberIDs"]).getD [])

/-- No forced unwrap stops the submission before its last write. -/
def Completes (vc : AddEventVC) (runtime : Runtime) : Prop :=
  vc.user.isSome = true ∨ removedIDs vc runtime = [] ∧ editedIDs vc runtime = []

instance (vc : AddEventVC) (runtime : Runtime) : Decidable (Completes vc runtime) :=
  inferInstanceAs (Decidable (_ ∨ _))

/-- Whoever writes a member array holds a copy that is up to date about everyone
the action does not name. -/
def ActsOnCurrent (w : World) : Action → Prop
  | .agree screen => ∀ vc, w.contentVCs[screen]? = some vc → w.Agrees vc.event [vc.currentUser]
  | .dropOut screen _ =>
    ∀ vc, w.contentVCs[screen]? = some vc → w.Agrees vc.event [vc.currentUser]
  | .uploaded screen runtime _ _ => ∀ vc autoID event, w.addVCs[screen]? = some vc →
    vc.phase = .uploading autoID → vc.event = some event → Completes vc runtime →
    w.Agrees event (removedIDs vc runtime)
  | _ => True

/-- About users without an intent the database and every copy agree anyway. -/
theorem agrees_iff {log : Log String String} (hchr : Chronicle ids log w) {copy : Event}
    (hheld : w.Held copy.eventID copy.memberIDs) (named written : List String)
    (hwritten : ∀ uid, uid ∉ named → (uid ∈ written ↔ uid ∈ copy.memberIDs)) :
    (∀ uid, uid ∉ named → log copy.eventID uid ≠ none →
      (uid ∈ written ↔ uid ∈ (tables w.db).memberIDs copy.eventID)) ↔ w.Agrees copy named := by
  constructor
  · intro h uid huid hnamed
    rw [← hwritten uid hnamed]
    by_cases hlog : log copy.eventID uid = none
    · apply iff_of_false
      · exact fun hmem => hchr.held _ _ hheld uid ((hwritten uid hnamed).mp hmem) huid hlog
      · exact fun hmem => hchr.stored _ uid hmem huid hlog
    · exact h uid hnamed hlog
  · intro h uid hnamed hlog
    have huid : uid ≠ "" := by
      rintro rfl
      exact hlog (hchr.noone _)
    rw [hwritten uid hnamed]
    exact h uid huid hnamed

theorem completes_iff (vc : AddEventVC) (runtime : Runtime) (eventID : String) :
    ((submission vc runtime eventID).rewrite).isSome = true ↔ Completes vc runtime := by
  unfold submission Completes
  split
  · next huser => simp [Change.rewrite, huser]
  · next huser hremoved => simp [Change.rewrite, huser, hremoved]
  · next huser hremoved hedited => simp [Change.rewrite, huser, hremoved, hedited]
  · next huser hremoved hedited => simp [Change.rewrite, huser, hremoved, hedited]

/-- From a state that honours every intent, one action leads to another exactly when
what it rewrites leaves the intents of others as they were. -/
theorem Step.honours_iff (h : Step ids w a w') {log : Log String String}
    (hhon : Honours (tables w.db).memberIDs log) :
    Honours (tables w'.db).memberIDs (w.note log a) ↔
      ∀ rewrite, (w.change a).rewrite = some rewrite → ∀ uid, uid ∉ rewrite.meant →
        log rewrite.event uid ≠ none →
          (uid ∈ rewrite.written ↔ uid ∈ (tables w.db).memberIDs rewrite.event) := by
  rw [h.tables_eq, Change.memberIDs_apply, note, Change.note]
  cases hrewrite : (w.change a).rewrite with
  | none => exact iff_of_true hhon nofun
  | some rewrite =>
    rw [Rewrite.honours_iff hhon rewrite (h.meant_written hrewrite)]
    constructor
    · intro hcurrent other hother
      exact Option.some.inj hother ▸ hcurrent
    · exact fun hcurrent => hcurrent rewrite rfl

theorem Step.actsOnCurrent_iff (h : Step ids w a w') {log : Log String String}
    (hchr : Chronicle ids log w) :
    (∀ rewrite, (w.change a).rewrite = some rewrite → ∀ uid, uid ∉ rewrite.meant →
        log rewrite.event uid ≠ none →
          (uid ∈ rewrite.written ↔ uid ∈ (tables w.db).memberIDs rewrite.event)) ↔
      w.ActsOnCurrent a := by
  cases h with
  | @agree screen vc _ hvc hprompt =>
    simp only [change, hvc, Change.rewrite, ActsOnCurrent, Option.some.injEq, forall_eq']
    apply agrees_iff hchr (.content (List.mem_of_getElem? hvc))
    intro uid huid
    simp [List.ne_of_not_mem_cons huid]
  | @dropOut screen _ vc hvc hoffer hmember =>
    simp only [change, hvc, Change.rewrite, ActsOnCurrent, Option.some.injEq, forall_eq']
    apply agrees_iff hchr (.content (List.mem_of_getElem? hvc))
    intro uid huid
    simp [List.ne_of_not_mem_cons huid]
  | reject hvc _ _ => simp [change, hvc, Change.rewrite, ActsOnCurrent]
  | @uploaded screen runtime time url autoID vc hvc hphase =>
    have hcomplete := completes_iff vc runtime (vc.submittedID autoID)
    simp only [change, hvc, hphase, ActsOnCurrent]
    cases hrewrite : (submission vc runtime (vc.submittedID autoID)).rewrite with
    | none =>
      have hstops : ¬Completes vc runtime := by simpa [hrewrite] using hcomplete
      apply iff_of_true (by simp)
      rintro _ _ _ ⟨⟩ - - hreaches
      exact absurd hreaches hstops
    | some rewrite =>
      have hreaches : Completes vc runtime := by simpa [hrewrite] using hcomplete
      obtain ⟨hevent, hwritten, hmeant, -⟩ := submission_meant vc runtime _ hrewrite
      simp only [Option.some.injEq, forall_eq', hevent, hwritten, hmeant]
      cases hedit : vc.event with
      | none =>
        -- A new event is written under a key no one has an intent about.
        have hunused := (hchr.uploading screen vc autoID hvc hphase).2 hedit
        rw [AddEventVC.submittedID, hedit]
        apply iff_of_true
        · intro uid _ hlog
          exact absurd (hunused.log uid) hlog
        · rintro _ _ _ ⟨⟩ - hnone
          rw [hedit] at hnone
          cases hnone
      | some event =>
        rw [AddEventVC.submittedID, hedit]
        have hagrees := agrees_iff hchr (.add (List.mem_of_getElem? hvc) hedit)
          (removedIDs vc runtime) (vc.finalMemberIDs runtime)
          fun uid huid => by simp [mem_finalMemberIDs vc runtime hedit, huid]
        rw [hagrees]
        constructor
        · rintro hcurrent _ _ _ ⟨⟩ - hsame -
          exact Option.some.inj (hedit.symm.trans hsame) ▸ hcurrent
        · exact fun hcurrent => hcurrent vc autoID event rfl hphase hedit hreaches
  | _ => exact iff_of_true (by simp [change, Change.rewrite]) trivial

/-- In every state of a run each user's last intent about each event is honoured, from
an empty log and the empty database on, exactly when every array the run writes is
written from a copy that is up to date about everyone the action does not name. -/
theorem no_lost_update_iff (ids : AutoId) (actions : List Action) :
    Always (logged (step ids) note)
        (fun s => Honours (fun eventID => (s.2.db.array? ["event", eventID, "memberIDs"]).getD []) s.1)
        (fun _ _ => none, World.empty) actions ↔
      EachStep (step ids) ActsOnCurrent World.empty actions := by
  rw [← eachStep_logged note (fun _ _ => none, World.empty) actions]
  refine always_iff_eachStep (fun s => Chronicle ids s.1 s.2 ∧ s.2.db.Within Schema ∧
    Accounts s.2) ?_ ?_ ?_ ?_ actions
  · rintro s a s' ⟨hchr, hw, hacc⟩ hhon hstep
    obtain ⟨w, hw', rfl⟩ := logged_cases hstep
    have h := Step.of_step ids hw'
    exact (h.honours_iff hhon).trans (h.actsOnCurrent_iff hchr)
  · rintro s a s' ⟨hchr, hw, hacc⟩ - - hstep
    obtain ⟨w, hw', rfl⟩ := logged_cases hstep
    have h := Step.of_step ids hw'
    exact ⟨hchr.step hw hacc h, h.db_eq ▸ hw.applyAll h.issued_within, hacc.step hw h⟩
  · exact ⟨Chronicle.empty ids, Store.Within.empty Schema, Accounts.empty⟩
  · intro eventID uid
    simp

/-- Bob and Carol are invited, both open the event, and both accept. -/
def bothAccept : List Action :=
  [.saveUser alice, .saveUser bob, .saveUser carol, .newEvent "alice" "2018-12-01 12:00",
    .queryOrganiserData 0, .didUpdateMember 0 bob, .didUpdateMember 0 carol, .fillIn 0 party, .done 0,
    .uploaded 0 .inOrder "2018-12-01" "party.jpg",
    .openEvent "bob" "k" (some "kkk"), .queryEventList 0, .userFetched 0 0 "2018-12-02",
    .openEvent "carol" "k" (some "kk"), .queryEventList 1, .userFetched 1 0 "2018-12-02",
    .agree 0, .agree 1]

/-- Carol's write puts the array back to a copy without Bob. -/
theorem accept_lost : ∃ log w,
    exec (logged (step .unary) note) (fun _ _ => none, World.empty) bothAccept = some (log, w) ∧
      log "k" "bob" = some true ∧
      "bob" ∉ (w.db.array? ["event", "k", "memberIDs"]).getD [] := by
  have hrun : ((exec (logged (step .unary) note) (fun _ _ => none, World.empty) bothAccept).any
      fun s => s.1 "k" "bob" = some true ∧
        "bob" ∉ (s.2.db.array? ["event", "k", "memberIDs"]).getD []) = true := by decide
  obtain ⟨s, hs, hlost⟩ := (Option.any_eq_true _ _).mp hrun
  exact ⟨s.1, s.2, hs, of_decide_eq_true hlost⟩

end World

end GetTogether
