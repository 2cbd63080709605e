import GetTogether.Realtime.Run

/-! The search for places. Every change of the search bar starts a search of its own; none
is cancelled, and a response replaces the places whatever the bar says by then. -/
namespace GetTogether

open Realtime

structure Search where
  number : Nat
  text : String
  deriving DecidableEq, Repr

inductive Answer (MapItem : Type) where
  | outstanding
  | failed
  | response (mapItems : List MapItem)
  deriving DecidableEq, Repr

structure LocationSearchVC (MapItem : Type) where
  /-- Whether the map screen has handed over its map. -/
  mapView : Bool
  matchingItems : List MapItem := []
  searches : List Search := []
  started : Nat := 0
  /-- The search that `matchingItems` is the response to. -/
  source : Option Search := none
  /-- The search for the text entered last, and what has become of it. -/
  latest : Option (Search × Answer MapItem) := none
  deriving DecidableEq, Repr

namespace LocationSearchVC

inductive Action (MapItem : Type) where
  | updateSearchResults (searchBarText : Option String)
  /-- A search calls its completion, without a response when it failed. -/
  | answered (search : Nat) (response : Option (List MapItem))
  deriving DecidableEq, Repr

variable {MapItem : Type}

def loaded (mapView : Bool) : LocationSearchVC MapItem where
  mapView := mapView

def updateSearchResults (vc : LocationSearchVC MapItem) (searchBarText : Option String) :
    LocationSearchVC MapItem :=
  match vc.mapView, searchBarText with
  | true, some text => { vc with
      searches := vc.searches ++ [⟨vc.started, text⟩]
      started := vc.started + 1
      latest := some (⟨vc.started, text⟩, .outstanding) }
  | _, _ => vc

def noted (vc : LocationSearchVC MapItem) (search : Search) (answer : Answer MapItem) :
    Option (Search × Answer MapItem) :=
  vc.latest.map fun latest => if latest.1 = search then (search, answer) else latest

def answered (vc : LocationSearchVC MapItem) (index : Nat) (search : Search)
    (response : Option (List MapItem)) : LocationSearchVC MapItem :=
  match response with
  | none => { vc with
      searches := vc.searches.eraseIdx index
      latest := vc.noted search .failed }
  | some mapItems => { vc with
      searches := vc.searches.eraseIdx index
      latest := vc.noted search (.response mapItems)
      matchingItems := mapItems
      source := some search }

def step (vc : LocationSearchVC MapItem) : Action MapItem → Option (LocationSearchVC MapItem)
  | .updateSearchResults searchBarText => some (vc.updateSearchResults searchBarText)
  | .answered index response =>
    (vc.searches[index]?).map fun search => vc.answered index search response

def didSelectRowAt (vc : LocationSearchVC MapItem) (row : Nat) : Option MapItem :=
  vc.matchingItems[row]?

/-- A search that has been answered is not answered again. -/
structure Numbered (vc : LocationSearchVC MapItem) : Prop where
  below : ∀ search ∈ vc.searches, search.number < vc.started
  nodup : vc.searches.Nodup
  latestBelow : ∀ search answer, vc.latest = some (search, answer) → search.number < vc.started
  latestAnswered : ∀ search answer, vc.latest = some (search, answer) → answer ≠ .outstanding →
    search ∉ vc.searches

variable {vc vc' : LocationSearchVC MapItem} {a : Action MapItem}

theorem noted_cases {search other : Search} {answer found : Answer MapItem}
    (h : vc.noted search answer = some (other, found)) :
    (other = search ∧ found = answer) ∨ (other ≠ search ∧ vc.latest = some (other, found)) := by
  obtain ⟨latest, hlatest, h⟩ := Option.map_eq_some_iff.mp h
  split at h
  · rw [Prod.mk.injEq] at h
    exact .inl ⟨h.1.symm, h.2.symm⟩
  · next hne =>
    rw [h] at hne hlatest
    exact .inr ⟨hne, hlatest⟩

theorem answered_fields (vc : LocationSearchVC MapItem) (index : Nat) (search : Search)
    (response : Option (List MapItem)) : ∃ answer,
      (vc.answered index search response).latest = vc.noted search answer ∧
      (vc.answered index search response).searches = vc.searches.eraseIdx index ∧
      (vc.answered index search response).started = vc.started := by
  cases response with
  | none => exact ⟨_, rfl, rfl, rfl⟩
  | some mapItems => exact ⟨_, rfl, rfl, rfl⟩

theorem Numbered.updateSearchResults (hvc : vc.Numbered) (searchBarText : Option String) :
    (vc.updateSearchResults searchBarText).Numbered := by
  unfold LocationSearchVC.updateSearchResults
  split
  · next text _ =>
    have hfresh : ⟨vc.started, text⟩ ∉ vc.searches := by
      intro h
      exact absurd (hvc.below _ h) (Nat.lt_irrefl _)
    constructor
    · intro search hsearch
      rcases List.mem_append.mp hsearch with h | h
      · have hbelow := hvc.below search h
        change search.number < vc.started + 1
        omega
      · rw [List.mem_singleton.mp h]
        exact Nat.lt_succ_self vc.started
    · rw [List.nodup_append]
      refine ⟨hvc.nodup, by simp, ?_⟩
      intro search hsearch other hother
      rw [List.mem_singleton.mp hother]
      exact ne_of_mem_of_not_mem hsearch hfresh
    · intro search answer h
      obtain ⟨rfl, -⟩ := Prod.mk.inj (Option.some.inj h)
      exact Nat.lt_succ_self vc.started
    · intro search answer h hanswered
      exact absurd (Prod.mk.inj (Option.some.inj h)).2.symm hanswered
  · exact hvc

theorem Numbered.answered (hvc : vc.Numbered) {index : Nat} {search : Search}
    (hsearch : vc.searches[index]? = some search) (response : Option (List MapItem)) :
    (vc.answered index search response).Numbered := by
  obtain ⟨answer, hlatest, hsearches, hstarted⟩ := vc.answered_fields index search response
  have hgone : search ∉ vc.searches.eraseIdx index := by
    intro h
    obtain ⟨i, hne, hi⟩ := List.mem_eraseIdx_iff_getElem?.mp h
    have hlt := (List.getElem?_eq_some_iff.mp hi).1
    exact hne ((List.getElem?_inj hlt hvc.nodup).mp (hi.trans hsearch.symm))
  constructor
  · rw [hsearches, hstarted]
    intro other hother
    exact hvc.below other (List.mem_of_mem_eraseIdx hother)
  · rw [hsearches]
    exact hvc.nodup.sublist (List.eraseIdx_sublist _ _)
  · rw [hlatest, hstarted]
    intro other found h
    rcases noted_cases h with ⟨rfl, -⟩ | ⟨-, h⟩
    · exact hvc.below other (List.mem_of_getElem? hsearch)
    · exact hvc.latestBelow other found h
  · rw [hlatest, hsearches]
    intro other found h hanswered
    rcases noted_cases h with ⟨rfl, -⟩ | ⟨-, h⟩
    · exact hgone
    · exact fun hother => hvc.latestAnswered other found h hanswered (List.mem_of_mem_eraseIdx hother)

theorem Numbered.step (hvc : vc.Numbered) (h : vc.step a = some vc') : vc'.Numbered := by
  cases a with
  | updateSearchResults searchBarText =>
    obtain rfl := Option.some.inj h
    exact hvc.updateSearchResults searchBarText
  | answered index response =>
    obtain ⟨search, hsearch, rfl⟩ := Option.map_eq_some_iff.mp h
    exact hvc.answered hsearch response

end LocationSearchVC

end GetTogether
