import GetTogether.Roster.Tables

/-! What each user last asked for, and whether the member arrays honour it. An array
is rewritten from a copy, so it honours everyone exactly when the copy agrees with
the stored array on everyone the rewrite does not mean to change. -/
namespace GetTogether.Roster

variable {υ ε : Type}

/-- For each event and user the last intent: to be a member, or not to be one. -/
abbrev Log (υ ε : Type) := ε → υ → Option Bool

def Honours (members : ε → List υ) (log : Log υ ε) : Prop :=
  ∀ event user, (log event user = some true → user ∈ members event) ∧
    (log event user = some false → user ∉ members event)

/-- A member array that is written, whom it is meant to change, and whether these
want to be members. -/
structure Rewrite (υ ε : Type) where
  event : ε
  written : List υ
  meant : List υ
  wanted : Bool

/-- Accepting asks for membership; dropping out, or being removed by an edit that
gets to its last write, ends it. -/
def Change.rewrite [DecidableEq υ] : Change υ ε → Option (Rewrite υ ε)
  | .accept user event held => some ⟨event, held ++ [user], [user], true⟩
  | .dropOut user event held => some ⟨event, held.filter (· ≠ user), [user], false⟩
  | .submit event removed _ (some written) => some ⟨event, written, removed, false⟩
  | _ => none

variable [DecidableEq υ] [DecidableEq ε]

def Rewrite.note (rewrite : Rewrite υ ε) (log : Log υ ε) : Log υ ε := fun event user =>
  if event = rewrite.event ∧ user ∈ rewrite.meant then some rewrite.wanted else log event user

def Change.note (change : Change υ ε) (log : Log υ ε) : Log υ ε :=
  match change.rewrite with
  | some rewrite => rewrite.note log
  | none => log

theorem Change.memberIDs_apply (change : Change υ ε) (tables : Tables υ ε) :
    (change.apply tables).memberIDs =
      match change.rewrite with
      | some rewrite => Function.update tables.memberIDs rewrite.event rewrite.written
      | none => tables.memberIDs := by
  cases change with
  | submit event removed invited written => cases written <;> rfl
  | _ => rfl

/-- A rewrite that gives those it means what they want honours everyone exactly when
it leaves everyone else with an intent as they were. -/
theorem Rewrite.honours_iff {members : ε → List υ} {log : Log υ ε} (h : Honours members log)
    (rewrite : Rewrite υ ε)
    (hmeant : ∀ user ∈ rewrite.meant, (user ∈ rewrite.written ↔ rewrite.wanted = true)) :
    Honours (Function.update members rewrite.event rewrite.written) (rewrite.note log) ↔
      ∀ user, user ∉ rewrite.meant → log rewrite.event user ≠ none →
        (user ∈ rewrite.written ↔ user ∈ members rewrite.event) := by
  constructor
  · intro hafter user huser hlog
    have hnew := hafter rewrite.event user
    have hold := h rewrite.event user
    simp only [Rewrite.note, huser, and_false, if_false, Function.update_self] at hnew
    cases hintent : log rewrite.event user with
    | none => exact absurd hintent hlog
    | some wanted =>
      cases wanted with
      | true => exact iff_of_true (hnew.1 hintent) (hold.1 hintent)
      | false => exact iff_of_false (hnew.2 hintent) (hold.2 hintent)
  · intro hcurrent event user
    by_cases hevent : event = rewrite.event
    · subst hevent
      simp only [Rewrite.note, true_and, Function.update_self]
      split
      · next huser =>
        simp only [Option.some.injEq]
        have hwanted := hmeant user huser
        constructor
        · exact fun htrue => hwanted.mpr htrue
        · exact fun hfalse hmem => absurd (hwanted.mp hmem) (by simp [hfalse])
      · next huser =>
        have hold := h rewrite.event user
        constructor
        · intro hintent
          exact (hcurrent user huser (by simp [hintent])).mpr (hold.1 hintent)
        · intro hintent hmem
          exact hold.2 hintent ((hcurrent user huser (by simp [hintent])).mp hmem)
    · simp only [Rewrite.note, hevent, false_and, if_false, Function.update_of_ne hevent]
      exact h event user

theorem Change.note_ne_none (change : Change υ ε) {log : Log υ ε} {event : ε} {user : υ}
    (h : log event user ≠ none) : change.note log event user ≠ none := by
  unfold Change.note
  cases change.rewrite with
  | none => exact h
  | some rewrite =>
    simp only [Rewrite.note]
    split
    · exact Option.some_ne_none _
    · exact h

end GetTogether.Roster
