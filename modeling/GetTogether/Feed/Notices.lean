import GetTogether.Feed.Bare
import GetTogether.Realtime.Ledger

/-! Notifications are told once and for all. Every key one is stored under was handed out
for it alone, so nothing is ever overwritten, and all that changes later is that it
becomes read or removed. -/
namespace GetTogether

open Realtime Roster

/-- The same notification, perhaps read or removed since. -/
structure GNotification.Later (before after : GNotification) : Prop where
  fields : after = { before with isRead := after.isRead, isRemoved := after.isRemoved }
  isRead : before.isRead = true → after.isRead = true
  isRemoved : before.isRemoved = true → after.isRemoved = true

theorem GNotification.Later.refl (notification : GNotification) : notification.Later notification :=
  ⟨rfl, id, id⟩

theorem GNotification.Later.trans {a b c : GNotification} (h : a.Later b) (h' : b.Later c) :
    a.Later c := by
  refine ⟨?_, fun hread => h'.isRead (h.isRead hread), fun hgone => h'.isRemoved (h.isRemoved hgone)⟩
  rw [h'.fields, h.fields]

def notificationLedger : Ledger where
  table := ["notification"]
  whole key tree := ∃ notification : GNotification, notification.notificationID = key ∧
    tree = notification.uploadNotification
  sets field value := (field = "isRead" ∨ field = "isRemoved") ∧ value = .bool true
  stored := by
    rintro field value ⟨-, rfl⟩
    rfl
  present := by
    rintro key tree ⟨notification, rfl, rfl⟩
    exact ⟨"notificationID", .string notification.notificationID, by
      simp [GNotification.uploadNotification]⟩

def Noticed (db : Store) (id : String) : Prop := db.contains ["notification", id] = true

theorem Noticed.of_read {db : Store} {id : String} {notification : GNotification}
    (h : GNotification.read db ["notification", id] = some notification) : Noticed db id := by
  rw [Noticed, Store.contains_iff]
  exact ⟨["notificationID"], _, (GNotification.read_eq_some.mp h).1⟩

theorem read_of_kept {db db' : Store} {id : String} {notification : GNotification}
    (h : notificationLedger.Kept db db' id)
    (hread : GNotification.read db ["notification", id] = some notification) :
    ∃ after, GNotification.read db' ["notification", id] = some after ∧
      notification.Later after := by
  rw [GNotification.read_eq_some] at hread
  simp only [List.cons_append, List.nil_append] at hread
  have hsame : ∀ field value, field ≠ "isRead" → field ≠ "isRemoved" →
      db.get ["notification", id, field] = some value →
      db'.get ["notification", id, field] = some value := by
    intro field value hread hremoved hget
    rcases h.field field with heq | ⟨_, ⟨hfield, -⟩, -⟩
    · exact heq.trans hget
    · exact absurd hfield (by simp [hread, hremoved])
  have hflag : ∀ field flag, db.get ["notification", id, field] = some (.bool flag) →
      ∃ flag', db'.get ["notification", id, field] = some (.bool flag') ∧
        (flag = true → flag' = true) := by
    intro field flag hget
    rcases h.field field with heq | ⟨_, ⟨-, rfl⟩, hset⟩
    · exact ⟨flag, heq.trans hget, fun h => h⟩
    · exact ⟨true, hset, fun _ => rfl⟩
  obtain ⟨hid, huser, hevent, hmessage, hremark, hisRead, htime, hisRemoved⟩ := hread
  obtain ⟨isRead, hisRead', hread⟩ := hflag _ _ hisRead
  obtain ⟨isRemoved, hisRemoved', hremoved⟩ := hflag _ _ hisRemoved
  refine ⟨{ notification with isRead, isRemoved }, ?_, rfl, hread, hremoved⟩
  rw [GNotification.read_eq_some]
  exact ⟨hsame _ _ (by decide) (by decide) hid, hsame _ _ (by decide) (by decide) huser,
    hsame _ _ (by decide) (by decide) hevent, hsame _ _ (by decide) (by decide) hmessage,
    hsame _ _ (by decide) (by decide) hremark, hisRead', hsame _ _ (by decide) (by decide) htime,
    hisRemoved'⟩

theorem read_of_posted {db : Store} {id : String} {tree : Tree}
    (htree : notificationLedger.whole id tree)
    (h : notificationLedger.Kept (notificationLedger.record id tree) db id) :
    ∃ notification : GNotification, notification.notificationID = id ∧
      tree = notification.uploadNotification ∧
      ∃ after, GNotification.read db ["notification", id] = some after ∧
        notification.Later after := by
  obtain ⟨notification, hid, rfl⟩ := htree
  refine ⟨notification, hid, rfl, read_of_kept h ?_⟩
  have hget : ∀ field, (notificationLedger.record id notification.uploadNotification).get
      ["notification", id, field] = notification.uploadNotification.get [field] :=
    fun field => @Ledger.get_record notificationLedger id field _
  rw [GNotification.read_eq_some]
  simp only [List.cons_append, List.nil_append, hget]
  simp [GNotification.uploadNotification]

theorem entry_told {known : String → Prop} (notification : GNotification) :
    notificationLedger.Entry known (told notification) :=
  .post ⟨notification, rfl, rfl⟩

theorem entry_of_topKey {known : String → Prop} {write : Write} {head : String}
    (hhead : write.topKey = some head) (hne : head ≠ "notification") :
    notificationLedger.Entry known write :=
  .of_topKey rfl hhead hne

theorem entry_flag {known : String → Prop} {id field : String} (hknown : known id)
    (hfield : field = "isRead" ∨ field = "isRemoved") : notificationLedger.Entry known
      (.updateChildValues ["notification", id] [(field, .bool true)]) :=
  .set hknown ⟨hfield, rfl⟩

theorem posted_told (notifications : List GNotification) :
    notificationLedger.posted (notifications.map told) = notifications.map (·.notificationID) := by
  rw [Ledger.posted, List.filterMap_map, ← List.filterMap_eq_map]
  rfl

section Upload

variable {known : String → Prop} (vc : AddEventVC) (runtime : Runtime) (newID : Nat → String)
  (time : String)

theorem posted_uploadEventData (autoID url : String) (uid : String) :
    (notificationLedger.posted
      (vc.uploadEventData runtime (some uid) autoID newID time url).writes).Sublist
        ((List.range ((vc.removedMembers runtime).length +
          (vc.editedMembers runtime).length)).map newID) := by
  have hremovals : (notificationLedger.posted (vc.removals runtime newID time).writes).Sublist
      ((List.range' 0 (vc.removedMembers runtime).length).map newID) := by
    unfold AddEventVC.removals
    cases vc.event with
    | none => exact List.nil_sublist _
    | some event =>
      apply Ledger.posted_forEach
      intro round member
      unfold AddEventVC.removal
      cases vc.user with
      | none => exact List.nil_sublist _
      | some user => exact List.Sublist.refl _
  have hinvitations : (notificationLedger.posted
      (vc.invitations runtime (vc.submittedID autoID) newID time).writes).Sublist
        ((List.range' (vc.removedMembers runtime).length
          (vc.editedMembers runtime).length).map newID) := by
    apply Ledger.posted_forEach
    intro round member
    unfold AddEventVC.invitation
    cases vc.user with
    | none => exact List.nil_sublist _
    | some user => exact List.Sublist.refl _
  have hevent : notificationLedger.posted [.setValue ["event", vc.submittedID autoID]
      (vc.storedEvent runtime uid (vc.submittedID autoID) url).uploadedEventData] = [] := rfl
  have hrest := @Ledger.posted_andThen notificationLedger
    (vc.invitations runtime (vc.submittedID autoID) newID time) (.issue [.setValue
      ["event", vc.submittedID autoID]
      (vc.storedEvent runtime uid (vc.submittedID autoID) url).uploadedEventData])
  rw [Outcome.issue_writes, hevent, List.append_nil] at hrest
  rw [List.range_eq_range', ← List.range'_append_1, List.map_append, Nat.zero_add]
  exact (Ledger.posted_andThen _ _).trans (hremovals.append (hrest.trans hinvitations))

end Upload

end GetTogether
