import GetTogether.Feed.Addressed

/-! The lists of the main screen are a view of the database: an account finds every event it
organises and every event it has joined, once, in the right list, and can open it. -/
namespace GetTogether

open Realtime Roster

namespace Feed

variable {ids : AutoId} {f : Feed}

theorem Known.readEvents (hknown : Known f) (hgov : Governed ids f) : ∃ events,
    MainVC.readEvents f.world.db = some events ∧ (events.map (·.eventID)).Nodup ∧
      events.Pairwise (fun a b => a.date ≤ b.date) ∧ ∀ event, event ∈ events ↔
        Event.read f.world.db ["event", event.eventID] = some event := by
  have hchild : ∀ eventID ∈ f.world.db.children ["event"], ∃ event,
      Event.read f.world.db ["event", eventID] = some event ∧ event.eventID = eventID := by
    intro eventID h
    rw [Store.mem_children_iff_contains] at h
    obtain ⟨event, hread, hkey, -⟩ := hknown.read_event hgov h
    exact ⟨event, hread, hkey⟩
  have hnode : ∀ eventID event, Event.read f.world.db ["event", eventID] = some event →
      eventID ∈ f.world.db.children ["event"] := by
    intro eventID event hread
    rw [Store.mem_children_iff_contains, Store.contains_iff]
    exact ⟨["eventID"], _, (Event.read_eq_some.mp hread).1⟩
  obtain ⟨read, hread, hnodup, hmem⟩ := f.world.db.readTable ["event"]
    (fun eventID => Event.read f.world.db ["event", eventID]) (·.eventID) hchild hnode
  refine ⟨_, by rw [MainVC.readEvents, hread]; rfl, ?_, ?_, fun event => ?_⟩
  · have hperm := (List.perm_insertionSort (fun a b : Event => a.date ≤ b.date) read).map
      (·.eventID)
    rwa [hperm.nodup_iff]
  · have : Std.Total fun a b : Event => a.date ≤ b.date := ⟨fun a b => String.le_total a.date b.date⟩
    have : IsTrans Event fun a b => a.date ≤ b.date := ⟨fun a b c => String.le_trans⟩
    exact List.pairwise_insertionSort _ _
  · rw [List.mem_insertionSort, hmem]

theorem node_of_member {eventID uid : String} (h : uid ∈ (tables f.world.db).memberIDs eventID) :
    f.world.db.contains ["event", eventID] = true := by
  cases hread : f.world.db.array? ["event", eventID, "memberIDs"] with
  | none => simp [tables, hread] at h
  | some members =>
    exact (Store.contains_iff _ _).mpr ⟨["memberIDs"], _, Store.array?_eq_some.mp hread⟩

theorem node_of_organiser {eventID uid : String} (h : OrganisedBy f.world.db eventID uid) :
    f.world.db.contains ["event", eventID] = true :=
  (Store.contains_iff _ _).mpr ⟨["organiserID"], _, h⟩

theorem Governed.not_member (hgov : Governed ids f) {eventID uid : String}
    (hby : OrganisedBy f.world.db eventID uid) :
    uid ∉ (tables f.world.db).memberIDs eventID := by
  intro hmember
  obtain ⟨huid, hguest⟩ := hgov.lawful.organised.aside eventID uid ((organised_bare ..).mp hby)
  rw [tables_bare] at hmember
  exact hguest (hgov.lawful.enrolled.stored eventID uid hmember huid)

theorem rows_of_filter {events : List Event} (hnodup : (events.map (·.eventID)).Nodup)
    (hsorted : events.Pairwise fun a b => a.date ≤ b.date) (keep : Event → Bool) :
    ((events.filter keep).reverse.map (·.eventID)).Nodup ∧
      (events.filter keep).reverse.Pairwise fun a b => b.date ≤ a.date := by
  constructor
  · rw [List.map_reverse, List.nodup_reverse]
    exact hnodup.sublist (List.filter_sublist.map _)
  · rw [List.pairwise_reverse]
    exact hsorted.sublist List.filter_sublist

/-- In every reachable state the lists of an account read without a failed cast and show, latest
date first and each once, the events stored with it as organiser and those stored with
it as a member. No event is in both lists, and each row opens its event. -/
theorem lists_show_the_database (ids : AutoId) (f : Feed)
    (h : Reachable (step ids) Feed.empty f) (vc : MainVC) (uid : String) :
    ∃ events, MainVC.readEvents f.world.db = some events ∧
      let shown := vc.delivered events uid
      ((shown.hostEventData ++ shown.joinedEventData).map (·.eventID)).Nodup ∧
      shown.hostEventData.Pairwise (fun a b => b.date ≤ a.date) ∧
      shown.joinedEventData.Pairwise (fun a b => b.date ≤ a.date) ∧
      (∀ eventID, eventID ∈ shown.hostEventData.map (·.eventID) ↔
        OrganisedBy f.world.db eventID uid) ∧
      (∀ eventID, eventID ∈ shown.joinedEventData.map (·.eventID) ↔
        uid ∈ (tables f.world.db).memberIDs eventID) ∧
      (uid ≠ "" → ∀ event ∈ shown.hostEventData ++ shown.joinedEventData,
        ∃ f', step ids f (.base (.openEvent uid event.eventID none)) = some f' ∧
          f'.world.contentVCs = f.world.contentVCs ++ [⟨uid, event, none, [], [], none, false⟩]) := by
  obtain ⟨hgov, hknown⟩ := known_reachable h
  obtain ⟨events, hread, hnodup, hsorted, hmem⟩ := hknown.readEvents hgov
  obtain ⟨hhosts, hhostsSorted⟩ := rows_of_filter hnodup hsorted (MainVC.hosts uid)
  obtain ⟨hjoins, hjoinsSorted⟩ := rows_of_filter hnodup hsorted (MainVC.joins uid)
  have hstored : ∀ event ∈ events, f.world.db.contains ["event", event.eventID] = true ∧
      OrganisedBy f.world.db event.eventID event.organiserID ∧
      (tables f.world.db).memberIDs event.eventID = event.memberIDs := by
    intro event hevent
    obtain ⟨-, hby, -, hmembers, -⟩ := Event.read_eq_some.mp ((hmem event).mp hevent)
    exact ⟨node_of_organiser hby, hby, congrArg (·.getD []) (Store.array?_eq_some.mpr hmembers)⟩
  refine ⟨events, hread, ?_, hhostsSorted, hjoinsSorted, fun eventID => ?_, fun eventID => ?_, ?_⟩
  · rw [List.map_append, List.nodup_append]
    refine ⟨hhosts, hjoins, fun hosted hhosted joined hjoined hsame => ?_⟩
    obtain ⟨event, hevent, rfl⟩ := List.mem_map.mp hhosted
    obtain ⟨other, hother, rfl⟩ := List.mem_map.mp hjoined
    obtain ⟨hin, rfl⟩ := vc.mem_hostEventData.mp hevent
    obtain ⟨hin', hmember⟩ := vc.mem_joinedEventData.mp hother
    obtain ⟨-, hby, -⟩ := hstored event hin
    obtain ⟨-, -, hmembers⟩ := hstored other hin'
    apply hgov.not_member hby
    rw [hsame, hmembers]
    exact hmember
  · rw [List.mem_map]
    constructor
    · intro hrow
      obtain ⟨event, hevent, rfl⟩ := hrow
      obtain ⟨hin, rfl⟩ := vc.mem_hostEventData.mp hevent
      exact (hstored event hin).2.1
    · intro hby
      obtain ⟨event, hevent, rfl, hby', -⟩ := hknown.read_event hgov (node_of_organiser hby)
      have horganiser : event.organiserID = uid := by simpa using hby'.symm.trans hby
      exact ⟨event, vc.mem_hostEventData.mpr ⟨(hmem event).mpr hevent, horganiser⟩, rfl⟩
  · rw [List.mem_map]
    constructor
    · intro hrow
      obtain ⟨event, hevent, rfl⟩ := hrow
      obtain ⟨hin, hmember⟩ := vc.mem_joinedEventData.mp hevent
      rw [(hstored event hin).2.2]
      exact hmember
    · intro hmember
      obtain ⟨event, hevent, rfl, -, hmembers⟩ := hknown.read_event hgov (node_of_member hmember)
      rw [hmembers] at hmember
      exact ⟨event, vc.mem_joinedEventData.mpr ⟨(hmem event).mpr hevent, hmember⟩, rfl⟩
  · intro huid event hrow
    have hoffered : event ∈ events ∧ (MainVC.hosts uid event || MainVC.joins uid event) = true := by
      rcases List.mem_append.mp hrow with hrow | hrow
      · obtain ⟨hevent, hhost⟩ := vc.mem_hostEventData.mp hrow
        exact ⟨hevent, by simp [MainVC.hosts, hhost]⟩
      · obtain ⟨hevent, hmember⟩ := vc.mem_joinedEventData.mp hrow
        exact ⟨hevent, by simp [MainVC.joins, hmember]⟩
    have hopen : World.opened f.world.db uid event.eventID none =
        some ⟨uid, event, none, [], [], none, false⟩ := by
      simp only [World.opened, (hmem event).mp hoffered.1, Option.bind_eq_bind, Option.bind_some,
        hoffered.2, if_true, Option.pure_def]
    exact ⟨_, by simp [step, World.step, hopen, huid]; rfl, rfl⟩

theorem lists_show_the_database_invitation : ∃ f events,
    exec (step .unary) Feed.empty invitation = some f ∧
      MainVC.readEvents f.world.db = some events ∧
      "k" ∈ (MainVC.delivered {} events "alice").hostEventData.map (·.eventID) := by
  have hrun : ((exec (step .unary) Feed.empty invitation).any fun f =>
      f.world.db.get ["event", "k", "organiserID"] = some (.string "alice")) = true := by decide
  obtain ⟨f, hf, hby⟩ := (Option.any_eq_true _ _).mp hrun
  rw [decide_eq_true_eq] at hby
  obtain ⟨events, hread, -, -, -, hhosts, -⟩ :=
    lists_show_the_database .unary f ⟨invitation, hf⟩ {} "alice"
  exact ⟨f, events, hf, hread, (hhosts "k").mpr hby⟩

end Feed

end GetTogether
