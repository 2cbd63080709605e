import GetTogether.Comments.Notifications

/-! The box a comment is typed into. Its text, the colour of the text and the send
button are set by the delegate of the text view and by sending; the placeholder is an
ordinary text in another colour. -/
namespace GetTogether

open Realtime

inductive TextColor where
  | lightGray
  | black
  deriving DecidableEq, Repr

structure Composer where
  text : String
  textColor : TextColor
  isEnabled : Bool
  isEditing : Bool
  deriving DecidableEq, Repr

structure Press where
  currentUser : Option String
  commentID : String
  timeZone : TimeZone
  now : ℚ

namespace Composer

def placeholder : String := "留言......"

/-- The text comes from the storyboard. -/
def viewDidLoad : Composer where
  text := placeholder
  textColor := .lightGray
  isEnabled := false
  isEditing := false

def textViewDidBeginEditing (composer : Composer) : Composer :=
  if composer.text = placeholder ∨ composer.text = "" then
    { composer with isEnabled := false, text := "", textColor := .black }
  else composer

def textViewDidEndEditing (composer : Composer) : Composer :=
  if composer.text = "" then
    { composer with text := placeholder, textColor := .lightGray, isEnabled := false }
  else composer

def textViewDidChange (composer : Composer) : Composer :=
  { composer with isEnabled := composer.text ≠ "" ∧ composer.textColor ≠ .lightGray }

/-- The box becomes first responder; a box that is one already is not told again. -/
def beginEditing (composer : Composer) : Composer :=
  if composer.isEditing then composer
  else textViewDidBeginEditing { composer with isEditing := true }

/-- `view.endEditing(true)`, after a touch outside the box or in a press. -/
def endEditing (composer : Composer) : Composer :=
  if composer.isEditing then textViewDidEndEditing { composer with isEditing := false }
  else composer

def edit (composer : Composer) (text : String) : Composer :=
  textViewDidChange { composer with text }

/-- What a press writes at once and the box it leaves; without an account it returns. -/
def inputPressed (vc : CommentVC) (composer : Composer) (press : Press) :
    List Write × Composer :=
  match press.currentUser with
  | none => ([], composer)
  | some uid =>
    -- The text is read before editing ends.
    (vc.inputPressed uid press.commentID composer.text press.timeZone press.now,
      { composer.endEditing with isEnabled := false, text := placeholder, textColor := .lightGray })

inductive Action where
  | beginEditing
  | edit (text : String)
  | endEditing
  | inputPressed (press : Press)

def Action.typed : Action → Option String
  | .edit text => some text
  | _ => none

/-- Events reach the box in any order; only a disabled button is never pressed. -/
def step (vc : CommentVC) (composer : Composer) : Action → Option Composer
  | .beginEditing => some composer.beginEditing
  | .edit text => some (composer.edit text)
  | .endEditing => some composer.endEditing
  | .inputPressed press =>
    if composer.isEnabled then some (composer.inputPressed vc press).2 else none

def latest (last : Option String) (action : Action) : Option String := action.typed.or last

/-- What is in the box can be sent only when it is what the user typed last. -/
def Owned (typed : Option String) (composer : Composer) : Prop :=
  composer.isEnabled = true →
    composer.text ≠ "" ∧ composer.textColor ≠ .lightGray ∧ typed = some composer.text

section Step

variable {vc : CommentVC} {typed : Option String} {composer : Composer}

theorem Owned.of_disabled (h : composer.isEnabled = false) : Owned typed composer := by
  intro henabled
  rw [h] at henabled
  contradiction

theorem Owned.textViewDidBeginEditing (h : Owned typed composer) :
    Owned typed composer.textViewDidBeginEditing := by
  unfold Composer.textViewDidBeginEditing
  split
  · exact .of_disabled rfl
  · exact h

theorem Owned.textViewDidEndEditing (h : Owned typed composer) :
    Owned typed composer.textViewDidEndEditing := by
  unfold Composer.textViewDidEndEditing
  split
  · exact .of_disabled rfl
  · exact h

theorem Owned.beginEditing (h : Owned typed composer) : Owned typed composer.beginEditing := by
  unfold Composer.beginEditing
  split
  · exact h
  · apply Owned.textViewDidBeginEditing
    exact h

theorem Owned.endEditing (h : Owned typed composer) : Owned typed composer.endEditing := by
  unfold Composer.endEditing
  split
  · apply Owned.textViewDidEndEditing
    exact h
  · exact h

theorem owned_edit (composer : Composer) (text : String) :
    Owned (some text) (composer.edit text) := by
  intro henabled
  have hchange : text ≠ "" ∧ composer.textColor ≠ .lightGray := of_decide_eq_true henabled
  exact ⟨hchange.1, hchange.2, rfl⟩

theorem Owned.inputPressed (h : Owned typed composer) (press : Press) :
    Owned typed (composer.inputPressed vc press).2 := by
  unfold Composer.inputPressed
  split
  · exact h
  · exact .of_disabled rfl

theorem step_inputPressed {press : Press} {posted : Composer}
    (h : step vc composer (.inputPressed press) = some posted) :
    composer.isEnabled = true ∧ (composer.inputPressed vc press).2 = posted := by
  have hguard := Option.ite_none_right_eq_some.mp h
  exact ⟨hguard.1, Option.some.inj hguard.2⟩

/-- An edit hands the text over; nothing else changes it and leaves the button enabled. -/
theorem Owned.step {composer' : Composer} {action : Action} (h : Owned typed composer)
    (hstep : step vc composer action = some composer') :
    Owned (latest typed action) composer' := by
  cases action with
  | beginEditing =>
    obtain rfl := Option.some.inj hstep
    exact h.beginEditing
  | edit text =>
    obtain rfl := Option.some.inj hstep
    exact owned_edit composer text
  | endEditing =>
    obtain rfl := Option.some.inj hstep
    exact h.endEditing
  | inputPressed press =>
    obtain ⟨-, rfl⟩ := step_inputPressed hstep
    exact h.inputPressed press

theorem Owned.exec {final : Composer} (h : Owned typed composer) (run : List Action)
    (hrun : exec (Composer.step vc) composer run = some final) :
    Owned (run.foldl latest typed) final := by
  induction run generalizing typed composer with
  | nil => exact Option.some.inj hrun ▸ h
  | cons action run ih =>
    obtain ⟨next, hnext, hrun⟩ := Option.bind_eq_some_iff.mp hrun
    exact ih (h.step hnext) hrun

end Step

end Composer

end GetTogether
