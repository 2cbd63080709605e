import GetTogether.Realtime.Handler

/-! A table whose records are written whole, each under a key of its own, and of which
only some fields are set after that. Whoever finds a record there finds the same
record at any later time, apart from those fields. -/
namespace GetTogether.Realtime

structure Ledger where
  table : Path
  /-- The records, by their keys. -/
  whole : String → Tree → Prop
  sets : String → Scalar → Prop
  stored : ∀ {field value}, sets field value → value.stored = true
  present : ∀ {key tree}, whole key tree → ∃ field value, tree.get [field] = some value

def Write.posted (table : Path) : Write → Option String
  | .setValue path _ => if path.dropLast = table then path.getLast? else none
  | _ => none

@[simp] theorem Write.posted_setValue (table : Path) (key : String) (tree : Tree) :
    (Write.setValue (table ++ [key]) tree).posted table = some key := by
  simp [Write.posted]

theorem Write.posted_of_topKey {write : Write} {head key : String}
    (hhead : write.topKey = some head) (hne : head ≠ key) (rest : Path) :
    write.posted (key :: rest) = none := by
  cases write with
  | setValue path tree =>
    obtain ⟨path, rfl⟩ := List.head?_eq_some_iff.mp hhead
    rw [Write.posted, if_neg]
    cases path with
    | nil => simp
    | cons next path =>
      rw [List.dropLast_cons_cons]
      intro h
      exact hne (List.cons.inj h).1
  | _ => rfl

namespace Ledger

variable (ledger : Ledger)

def posted (writes : List Write) : List String := writes.filterMap (Write.posted ledger.table)

/-- The writes such a table allows; a field is set in a record that is known. -/
inductive Entry (known : String → Prop) : Write → Prop
  | elsewhere {write : Write} : (∀ rest, write.writtenAt (ledger.table ++ rest) = none) →
      write.posted ledger.table = none → Entry known write
  | post {key : String} {tree : Tree} : ledger.whole key tree →
      Entry known (.setValue (ledger.table ++ [key]) tree)
  | set {key field : String} {value : Scalar} : known key → ledger.sets field value →
      Entry known (.updateChildValues (ledger.table ++ [key]) [(field, value)])

/-- Every field of the record is what it was, or has been set. -/
structure Kept (db db' : Store) (key : String) : Prop where
  field : ∀ field, db'.get (ledger.table ++ [key, field]) = db.get (ledger.table ++ [key, field]) ∨
    ∃ value, ledger.sets field value ∧ db'.get (ledger.table ++ [key, field]) = some value
  contains : db'.contains (ledger.table ++ [key]) = db.contains (ledger.table ++ [key])

def record (key : String) (tree : Tree) : Store :=
  Store.empty.setValue (ledger.table ++ [key]) tree

theorem Entry.of_topKey {ledger : Ledger} {known : String → Prop} {write : Write} {head key : String}
    {rest : Path} (htable : ledger.table = key :: rest) (hhead : write.topKey = some head)
    (hne : head ≠ key) : ledger.Entry known write := by
  apply Entry.elsewhere
  · intro path
    rw [htable]
    exact Write.apart_of_topKey hhead hne (rest ++ path)
  · rw [htable]
    exact Write.posted_of_topKey hhead hne rest

variable {ledger} {known : String → Prop} {db db' db'' : Store} {key : String} {write : Write}

theorem Kept.refl (db : Store) (key : String) : ledger.Kept db db key :=
  ⟨fun _ => .inl rfl, rfl⟩

theorem Kept.trans (h : ledger.Kept db db' key) (h' : ledger.Kept db' db'' key) :
    ledger.Kept db db'' key := by
  refine ⟨fun field => ?_, h'.contains.trans h.contains⟩
  rcases h'.field field with hsame | hset
  · rw [hsame]
    exact h.field field
  · exact .inr hset

theorem Kept.of_get_eq
    (h : ∀ rest, db'.get (ledger.table ++ key :: rest) = db.get (ledger.table ++ key :: rest)) :
    ledger.Kept db db' key := by
  refine ⟨fun field => .inl (h [field]), Store.contains_of_get_eq fun rest => ?_⟩
  simp only [List.append_assoc, List.singleton_append, h]

theorem get_record (key field : String) (tree : Tree) :
    (ledger.record key tree).get (ledger.table ++ [key, field]) = tree.get [field] := by
  simp [record, Store.get_setValue]

theorem contains_of_get {field : String} {value : Scalar}
    (h : db.get (ledger.table ++ [key, field]) = some value) :
    db.contains (ledger.table ++ [key]) = true := by
  rw [Store.contains_iff]
  exact ⟨[field], value, by simpa using h⟩

theorem contains_record {tree : Tree} (h : ledger.whole key tree) :
    (ledger.record key tree).contains (ledger.table ++ [key]) = true := by
  obtain ⟨field, value, hget⟩ := ledger.present h
  exact contains_of_get ((get_record key field tree).trans hget)

theorem kept_post {tree : Tree} (h : ledger.whole key tree) :
    ledger.Kept (ledger.record key tree)
      ((Write.setValue (ledger.table ++ [key]) tree).apply db) key := by
  have hget : ∀ field, ((Write.setValue (ledger.table ++ [key]) tree).apply db).get
      (ledger.table ++ [key, field]) = tree.get [field] := by
    intro field
    simp [Write.get_apply]
  refine ⟨fun field => .inl ?_, ?_⟩
  · rw [hget, get_record]
  · obtain ⟨field, value, hvalue⟩ := ledger.present h
    rw [contains_record h, contains_of_get ((hget field).trans hvalue)]

theorem Entry.kept (h : ledger.Entry known write)
    (hknown : ∀ other, known other → db.contains (ledger.table ++ [other]) = true)
    (hkey : write.posted ledger.table ≠ some key) : ledger.Kept db (write.apply db) key := by
  cases h with
  | elsewhere h _ =>
    apply Kept.of_get_eq
    intro rest
    rw [Write.get_apply, h]
    rfl
  | @post other tree _ =>
    have hne : other ≠ key := by
      rintro rfl
      exact hkey (Write.posted_setValue _ _ tree)
    apply Kept.of_get_eq
    intro rest
    simp [Write.get_apply, hne]
  | @set other field value hother hvalue =>
    by_cases hsame : other = key
    · subst hsame
      have hset : ((Write.updateChildValues (ledger.table ++ [other]) [(field, value)]).apply db).get
          (ledger.table ++ [other, field]) = some value := by
        simp [Write.get_apply, ledger.stored hvalue]
      refine ⟨fun query => ?_, ?_⟩
      · by_cases hquery : field = query
        · subst hquery
          exact .inr ⟨value, hvalue, hset⟩
        · left
          simp [Write.get_apply, hquery]
      · rw [contains_of_get hset, hknown other hother]
    · apply Kept.of_get_eq
      intro rest
      simp [Write.get_apply, hsame]

theorem Entry.contains (h : ledger.Entry known write)
    (hknown : ∀ other, known other → db.contains (ledger.table ++ [other]) = true)
    (hkey : db.contains (ledger.table ++ [key]) = true) :
    (write.apply db).contains (ledger.table ++ [key]) = true := by
  by_cases hpost : write.posted ledger.table = some key
  · cases h with
    | elsewhere _ hnone => simp [hnone] at hpost
    | @post other tree htree =>
      obtain rfl : other = key := by simpa using hpost
      rw [(kept_post htree).contains, contains_record htree]
    | set _ _ => simp [Write.posted] at hpost
  · rw [(h.kept hknown hpost).contains, hkey]

section Writes

variable {writes : List Write} (h : ∀ write ∈ writes, ledger.Entry known write)
  (hknown : ∀ other, known other → db.contains (ledger.table ++ [other]) = true)

include h hknown

theorem kept_applyAll (hkey : key ∉ ledger.posted writes) :
    ledger.Kept db (db.applyAll writes) key := by
  induction writes generalizing db with
  | nil => exact Kept.refl db key
  | cons write rest ih =>
    have hwrite := h write List.mem_cons_self
    have hpost : write.posted ledger.table ≠ some key := fun hpost =>
      hkey (List.mem_filterMap.mpr ⟨write, List.mem_cons_self, hpost⟩)
    apply (hwrite.kept hknown hpost).trans
    apply ih (fun other hother => h other (List.mem_cons_of_mem write hother))
    · exact fun other hother => hwrite.contains hknown (hknown other hother)
    · intro hrest
      obtain ⟨other, hother, heq⟩ := List.mem_filterMap.mp hrest
      exact hkey (List.mem_filterMap.mpr ⟨other, List.mem_cons_of_mem write hother, heq⟩)

theorem posted_applyAll (hnodup : (ledger.posted writes).Nodup) (hkey : key ∈ ledger.posted writes) :
    ∃ tree, ledger.whole key tree ∧ .setValue (ledger.table ++ [key]) tree ∈ writes ∧
      ledger.Kept (ledger.record key tree) (db.applyAll writes) key := by
  induction writes generalizing db with
  | nil => exact absurd hkey List.not_mem_nil
  | cons write rest ih =>
    have hwrite := h write List.mem_cons_self
    have hrest := fun other hother => h other (List.mem_cons_of_mem write hother)
    have hstill := fun other hother => hwrite.contains hknown (hknown other hother)
    by_cases hpost : write.posted ledger.table = some key
    · have hlater : key ∉ ledger.posted rest := by
        rw [posted, List.filterMap_cons_some hpost] at hnodup
        exact (List.nodup_cons.mp hnodup).1
      cases hwrite with
      | elsewhere _ hnone => simp [hnone] at hpost
      | @post other tree htree =>
        obtain rfl : other = key := by simpa using hpost
        exact ⟨tree, htree, List.mem_cons_self,
          (kept_post htree).trans (kept_applyAll hrest hstill hlater)⟩
      | set _ _ => simp [Write.posted] at hpost
    · have hone := hnodup.sublist ((List.sublist_cons_self write rest).filterMap _)
      have hlater : key ∈ ledger.posted rest := by
        obtain ⟨other, hother, heq⟩ := List.mem_filterMap.mp hkey
        rcases List.mem_cons.mp hother with rfl | hother
        · exact absurd heq hpost
        · exact List.mem_filterMap.mpr ⟨other, hother, heq⟩
      obtain ⟨tree, htree, hmem, hkept⟩ := ih hrest hstill hone hlater
      exact ⟨tree, htree, List.mem_cons_of_mem write hmem, hkept⟩

end Writes

/-! How many records a loop posts. -/

theorem posted_append (first second : List Write) :
    ledger.posted (first ++ second) = ledger.posted first ++ ledger.posted second :=
  List.filterMap_append ..

theorem posted_andThen (first second : Outcome) : (ledger.posted (first.andThen second).writes).Sublist
    (ledger.posted first.writes ++ ledger.posted second.writes) := by
  unfold Outcome.andThen
  split
  · exact List.sublist_append_left _ _
  · rw [posted_append]

/-- A loop whose rounds post no more than one record, under the key of the round. -/
theorem posted_forEach {α : Type} {body : Nat → α → Outcome} {newKey : Nat → String}
    (hbody : ∀ round x, (ledger.posted (body round x).writes).Sublist [newKey round])
    (round : Nat) (xs : List α) : (ledger.posted (Outcome.forEach body round xs).writes).Sublist
      ((List.range' round xs.length).map newKey) := by
  induction xs generalizing round with
  | nil => exact List.Sublist.refl _
  | cons x xs ih =>
    rw [List.length_cons, List.range'_succ, List.map_cons, ← List.singleton_append]
    exact (posted_andThen _ _).trans ((hbody round x).append (ih (round + 1)))

end Ledger

end GetTogether.Realtime
