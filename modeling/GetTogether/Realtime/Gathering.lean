import GetTogether.Realtime.Run
import Mathlib.Data.List.Perm.Basic

/-! Requests that are answered one at a time, in whatever order. An answer is put at the
end of what has been gathered, unless there is nothing to answer. -/
namespace GetTogether.Realtime

universe u v

structure Gathering (α : Type u) (β : Type v) where
  pending : List α
  gathered : List β

namespace Gathering

variable {α : Type u} {β : Type v} (answer : α → Option β)

def step (gathering : Gathering α β) (index : Nat) : Option (Gathering α β) :=
  (gathering.pending[index]?).map fun request =>
    ⟨gathering.pending.eraseIdx index, gathering.gathered ++ (answer request).toList⟩

def total (gathering : Gathering α β) : List β :=
  gathering.pending.filterMap answer ++ gathering.gathered

variable {answer} {gathering gathering' : Gathering α β}

private theorem filterMap_cons_eq (request : α) (requests : List α) :
    (request :: requests).filterMap answer =
      (answer request).toList ++ requests.filterMap answer := by
  cases h : answer request with
  | none => simp [h]
  | some found => simp [h]

theorem total_step {index : Nat} (h : gathering.step answer index = some gathering') :
    (gathering'.total answer).Perm (gathering.total answer) := by
  obtain ⟨request, hrequest, rfl⟩ := Option.map_eq_some_iff.mp h
  obtain ⟨hlt, rfl⟩ := List.getElem?_eq_some_iff.mp hrequest
  have hpick := (List.getElem_cons_eraseIdx_perm hlt).filterMap answer
  rw [filterMap_cons_eq] at hpick
  have hmove : (total answer ⟨gathering.pending.eraseIdx index, gathering.gathered ++
      (answer gathering.pending[index]).toList⟩).Perm
      ((answer gathering.pending[index]).toList ++
        ((gathering.pending.eraseIdx index).filterMap answer ++ gathering.gathered)) := by
    unfold total
    rw [← List.append_assoc]
    exact List.perm_append_comm
  rw [← List.append_assoc] at hmove
  exact hmove.trans (hpick.append_right gathering.gathered)

theorem total_exec {order : List Nat} (h : exec (step answer) gathering order = some gathering') :
    (gathering'.total answer).Perm (gathering.total answer) := by
  have hkeep : ∀ (g : Gathering α β) index g', (g.total answer).Perm (gathering.total answer) →
      step answer g index = some g' → (g'.total answer).Perm (gathering.total answer) := by
    intro g index g' hg hstep
    exact (total_step hstep).trans hg
  exact exec_invariant hkeep (List.Perm.refl _) order h

/-- Once everything is answered, the order has only decided the order. -/
theorem gathered_perm {requests : List α} {order : List Nat}
    (h : exec (step answer) ⟨requests, []⟩ order = some gathering)
    (hdone : gathering.pending = []) : gathering.gathered.Perm (requests.filterMap answer) := by
  have htotal := total_exec h
  unfold total at htotal
  rwa [hdone, List.filterMap_nil, List.nil_append, List.append_nil] at htotal

end Gathering

end GetTogether.Realtime
