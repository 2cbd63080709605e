import GetTogether.Realtime.Store
import Mathlib.Data.List.Forall2

/-! A handler issues writes one after another and may stop at a forced unwrap.
What a sequence of writes leaves at a path is computed from the writes alone, so
two stores that agree before a handler ran are compared path by path after it. -/
namespace GetTogether.Realtime

inductive Write where
  | setValue (path : Path) (value : Tree)
  | updateChildValues (path : Path) (fields : List (String × Scalar))
  | removeValue (path : Path)
  deriving DecidableEq, Repr

def Write.apply (store : Store) : Write → Store
  | .setValue path value => store.setValue path value
  | .updateChildValues path fields => store.updateChildValues path fields
  | .removeValue path => store.removeValue path

def Store.applyAll (store : Store) (writes : List Write) : Store :=
  writes.foldl Write.apply store

/-- The value a whole write of `tree` at `path` leaves at `query`, when it lies there. -/
def Tree.writtenAt (tree : Tree) (path query : Path) : Option (Option Scalar) :=
  if path <+: query then some (tree.get (query.drop path.length)) else none

def fieldsWrittenAt (path query : Path) : List (String × Scalar) → Option (Option Scalar)
  | [] => none
  | field :: rest => (fieldsWrittenAt path query rest).or
      ((Tree.scalar field.2).writtenAt (path ++ [field.1]) query)

/-- What a write leaves at a path: `none` when it does not touch the path,
`some none` when it leaves nothing to read there. -/
def Write.writtenAt (query : Path) : Write → Option (Option Scalar)
  | .setValue path value => value.writtenAt path query
  | .updateChildValues path fields => fieldsWrittenAt path query fields
  | .removeValue path => Tree.writtenAt [] path query

/-- The last write that touches the path decides. -/
def writtenAt (query : Path) : List Write → Option (Option Scalar)
  | [] => none
  | write :: rest => (writtenAt query rest).or (write.writtenAt query)

@[simp] theorem Write.writtenAt_setValue (query path : Path) (tree : Tree) :
    (Write.setValue path tree).writtenAt query =
      if path <+: query then some (tree.get (query.drop path.length)) else none := rfl

@[simp] theorem Write.writtenAt_removeValue (query path : Path) :
    (Write.removeValue path).writtenAt query = if path <+: query then some none else none := rfl

@[simp] theorem Write.writtenAt_updateChildValues (query path : Path) (key : String)
    (value : Scalar) : (Write.updateChildValues path [(key, value)]).writtenAt query =
      if path ++ [key] <+: query
      then some ((Tree.scalar value).get (query.drop (path ++ [key]).length)) else none := rfl

theorem get_setValue_eq (store : Store) (path query : Path) (tree : Tree) :
    (store.setValue path tree).get query =
      (tree.writtenAt path query).getD (store.get query) := by
  rw [Store.get_setValue, Tree.writtenAt]
  split <;> rfl

private theorem getD_or {α : Type} (later earlier : Option α) (default : α) :
    later.getD (earlier.getD default) = (later.or earlier).getD default := by
  cases later <;> rfl

theorem get_updateChildValues (store : Store) (path query : Path)
    (fields : List (String × Scalar)) :
    (store.updateChildValues path fields).get query =
      (fieldsWrittenAt path query fields).getD (store.get query) := by
  unfold Store.updateChildValues
  induction fields generalizing store with
  | nil => rfl
  | cons field rest ih =>
    rw [List.foldl_cons, ih, get_setValue_eq, getD_or]
    rfl

theorem Write.get_apply (store : Store) (write : Write) (query : Path) :
    (write.apply store).get query = (write.writtenAt query).getD (store.get query) := by
  cases write with
  | setValue path value => exact get_setValue_eq store path query value
  | updateChildValues path fields => exact get_updateChildValues store path query fields
  | removeValue path => exact get_setValue_eq store path query []

theorem get_applyAll (store : Store) (writes : List Write) (query : Path) :
    (store.applyAll writes).get query = (writtenAt query writes).getD (store.get query) := by
  unfold Store.applyAll
  induction writes generalizing store with
  | nil => rfl
  | cons write rest ih =>
    rw [List.foldl_cons, ih, Write.get_apply, getD_or]
    rfl

@[simp] theorem writtenAt_nil (query : Path) : writtenAt query [] = none := rfl

@[simp] theorem writtenAt_cons (query : Path) (write : Write) (rest : List Write) :
    writtenAt query (write :: rest) = (writtenAt query rest).or (write.writtenAt query) := rfl

@[simp] theorem writtenAt_append (query : Path) (first second : List Write) :
    writtenAt query (first ++ second) = (writtenAt query second).or (writtenAt query first) := by
  induction first with
  | nil => simp
  | cons write rest ih => rw [List.cons_append, writtenAt_cons, ih, writtenAt_cons, Option.or_assoc]

theorem get_applyAll_of_untouched {store : Store} {writes : List Write} {query : Path}
    (h : writtenAt query writes = none) : (store.applyAll writes).get query = store.get query := by
  rw [get_applyAll, h]
  rfl

theorem writtenAt_eq_none_iff {query : Path} {writes : List Write} :
    writtenAt query writes = none ↔ ∀ write ∈ writes, write.writtenAt query = none := by
  induction writes with
  | nil => simp
  | cons write rest ih => rw [writtenAt_cons, Option.or_eq_none_iff, ih, List.forall_mem_cons, and_comm]

theorem Store.applyAll_invariant (invariant : Store → Prop) {writes : List Write}
    (hwrite : ∀ write ∈ writes, ∀ store, invariant store → invariant (write.apply store))
    {store : Store} (hstore : invariant store) : invariant (store.applyAll writes) := by
  induction writes generalizing store with
  | nil => exact hstore
  | cons write rest ih =>
    apply ih
    · intro other hother
      exact hwrite other (List.mem_cons_of_mem write hother)
    · exact hwrite write List.mem_cons_self store hstore

theorem exists_of_writtenAt {query : Path} {writes : List Write} {result : Option Scalar}
    (h : writtenAt query writes = some result) :
    ∃ write ∈ writes, write.writtenAt query = some result := by
  induction writes with
  | nil => simp at h
  | cons write rest ih =>
    rw [writtenAt_cons, Option.or_eq_some_iff] at h
    rcases h with h | ⟨-, h⟩
    · obtain ⟨other, hother, heq⟩ := ih h
      exact ⟨other, List.mem_cons_of_mem write hother, heq⟩
    · exact ⟨write, List.mem_cons_self, h⟩

/-! Most writes go to another table than the one looked at. -/

def Write.Apart (key : String) (write : Write) : Prop :=
  ∀ rest, write.writtenAt (key :: rest) = none

section Apart

variable {key head : String} (h : head ≠ key) (path : Path)

include h

theorem Write.apart_setValue (value : Tree) : (Write.setValue (head :: path) value).Apart key := by
  intro rest
  simp [h]

theorem Write.apart_removeValue : (Write.removeValue (head :: path)).Apart key := by
  intro rest
  simp [h]

theorem Write.apart_updateChildValues (field : String) (value : Scalar) :
    (Write.updateChildValues (head :: path) [(field, value)]).Apart key := by
  intro rest
  simp [h]

end Apart

def Write.topKey : Write → Option String
  | .setValue path _ => path.head?
  | .updateChildValues path _ => path.head?
  | .removeValue path => path.head?

theorem fieldsWrittenAt_of_ne {head key : String} (h : head ≠ key) (path rest : Path)
    (fields : List (String × Scalar)) :
    fieldsWrittenAt (head :: path) (key :: rest) fields = none := by
  induction fields with
  | nil => rfl
  | cons field fields ih => simp [fieldsWrittenAt, ih, Tree.writtenAt, h]

theorem Write.apart_of_topKey {write : Write} {head key : String}
    (hhead : write.topKey = some head) (hne : head ≠ key) : write.Apart key := by
  intro rest
  cases write with
  | setValue path value =>
    obtain ⟨path, rfl⟩ := List.head?_eq_some_iff.mp hhead
    exact Write.apart_setValue hne path value rest
  | updateChildValues path fields =>
    obtain ⟨path, rfl⟩ := List.head?_eq_some_iff.mp hhead
    exact fieldsWrittenAt_of_ne hne path rest fields
  | removeValue path =>
    obtain ⟨path, rfl⟩ := List.head?_eq_some_iff.mp hhead
    exact Write.apart_removeValue hne path rest

theorem get_applyAll_of_apart {store : Store} {writes : List Write} {key : String}
    (h : ∀ write ∈ writes, write.Apart key) (rest : Path) :
    (store.applyAll writes).get (key :: rest) = store.get (key :: rest) :=
  get_applyAll_of_untouched (writtenAt_eq_none_iff.mpr fun write hwrite => h write hwrite rest)

/-! A schema says which scalars may lie at which paths. -/

def Store.Within (schema : Path → Scalar → Prop) (store : Store) : Prop :=
  ∀ path value, store.get path = some value → schema path value

def Write.Within (schema : Path → Scalar → Prop) (write : Write) : Prop :=
  ∀ path value, write.writtenAt path = some (some value) → schema path value

theorem Store.Within.empty (schema : Path → Scalar → Prop) : Store.empty.Within schema := by
  intro path value h
  simp at h

theorem Store.Within.applyAll {schema : Path → Scalar → Prop} {store : Store}
    {writes : List Write} (hstore : store.Within schema)
    (hwrites : ∀ write ∈ writes, write.Within schema) : (store.applyAll writes).Within schema := by
  intro path value h
  rw [get_applyAll] at h
  cases hw : writtenAt path writes with
  | none =>
    rw [hw] at h
    exact hstore path value h
  | some result =>
    rw [hw] at h
    obtain ⟨write, hwrite, heq⟩ := exists_of_writtenAt hw
    exact hwrites write hwrite path value (heq.trans (congrArg some h))

section Within

variable {schema : Path → Scalar → Prop}

theorem Tree.get_object_eq_some {fields : List (String × Scalar)} {path : Path} {value : Scalar}
    (h : (Tree.object fields).get path = some value) :
    ∃ key, path = [key] ∧ (key, value) ∈ fields := by
  unfold Tree.get Tree.object at h
  obtain ⟨before, after, heq, -⟩ := List.lookup_eq_some_iff.mp h
  have hmem : (path, value) ∈ fields.map fun field => ([field.1], field.2) :=
    (List.mem_filter.mp (heq ▸ List.mem_append_right before List.mem_cons_self)).1
  obtain ⟨⟨key, scalar⟩, hfield, heq⟩ := List.mem_map.mp hmem
  obtain ⟨rfl, rfl⟩ := Prod.mk.injEq .. ▸ heq
  exact ⟨key, rfl, hfield⟩

theorem Tree.get_scalar_eq_some {scalar value : Scalar} {path : Path}
    (h : (Tree.scalar scalar).get path = some value) : path = [] ∧ value = scalar := by
  unfold Tree.get Tree.scalar at h
  obtain ⟨before, after, heq, -⟩ := List.lookup_eq_some_iff.mp h
  have hmem : (path, value) ∈ [(([] : Path), scalar)] :=
    (List.mem_filter.mp (heq ▸ List.mem_append_right before List.mem_cons_self)).1
  simpa using hmem

theorem Write.within_removeValue (path : Path) : (Write.removeValue path).Within schema := by
  intro query value h
  simp at h

theorem Write.within_object {path : Path} {fields : List (String × Scalar)}
    (h : ∀ field ∈ fields, schema (path ++ [field.1]) field.2) :
    (Write.setValue path (.object fields)).Within schema := by
  intro query value hquery
  rw [Write.writtenAt_setValue, Option.ite_none_right_eq_some, Option.some.injEq] at hquery
  obtain ⟨⟨rest, rfl⟩, hget⟩ := hquery
  rw [List.drop_left] at hget
  obtain ⟨key, rfl, hfield⟩ := Tree.get_object_eq_some hget
  exact h (key, value) hfield

theorem Write.within_scalar {path : Path} {value : Scalar} (h : schema path value) :
    (Write.setValue path (.scalar value)).Within schema := by
  intro query found hquery
  rw [Write.writtenAt_setValue, Option.ite_none_right_eq_some, Option.some.injEq] at hquery
  obtain ⟨⟨rest, rfl⟩, hget⟩ := hquery
  rw [List.drop_left] at hget
  obtain ⟨rfl, rfl⟩ := Tree.get_scalar_eq_some hget
  rwa [List.append_nil]

theorem Write.within_updateChildValues {path : Path} {key : String} {value : Scalar}
    (h : schema (path ++ [key]) value) :
    (Write.updateChildValues path [(key, value)]).Within schema := by
  intro query found hquery
  rw [Write.writtenAt_updateChildValues] at hquery
  exact Write.within_scalar h query found hquery

end Within

/-- The writes issued so far, and whether a forced unwrap or cast stopped the handler there. -/
structure Outcome where
  writes : List Write
  trapped : Bool
  deriving DecidableEq, Repr

namespace Outcome

def issue (writes : List Write) : Outcome := ⟨writes, false⟩

def trap : Outcome := ⟨[], true⟩

/-- Nothing runs after a trap. -/
def andThen (first second : Outcome) : Outcome :=
  if first.trapped then first else ⟨first.writes ++ second.writes, second.trapped⟩

/-- A loop over an array; the body is also given the number of its round. -/
def forEach {α : Type} (body : Nat → α → Outcome) : Nat → List α → Outcome
  | _, [] => issue []
  | round, x :: xs => (body round x).andThen (forEach body (round + 1) xs)

@[simp] theorem issue_writes (writes : List Write) : (issue writes).writes = writes := rfl

@[simp] theorem issue_trapped (writes : List Write) : (issue writes).trapped = false := rfl

@[simp] theorem issue_andThen (writes : List Write) (second : Outcome) :
    (issue writes).andThen second = ⟨writes ++ second.writes, second.trapped⟩ := rfl

theorem andThen_of_not_trapped {first second : Outcome} (h : first.trapped = false) :
    first.andThen second = ⟨first.writes ++ second.writes, second.trapped⟩ := by
  simp [andThen, h]

theorem forEach_trapped {α : Type} {body : Nat → α → Outcome}
    (hbody : ∀ round x, (body round x).trapped = false) (round : Nat) (xs : List α) :
    (forEach body round xs).trapped = false := by
  induction xs generalizing round with
  | nil => rfl
  | cons x xs ih =>
    rw [forEach, andThen_of_not_trapped (hbody round x)]
    exact ih (round + 1)

/-- What relates the writes of each round to those of its element relates the writes
of the loop to those of all elements. -/
theorem forEach_forall₂ {α β : Type} {R : Write → β → Prop} {body : Nat → α → Outcome}
    {images : α → List β} (htrap : ∀ round x, (body round x).trapped = false)
    (hbody : ∀ round x, List.Forall₂ R (body round x).writes (images x)) (round : Nat)
    (xs : List α) : List.Forall₂ R (forEach body round xs).writes (xs.flatMap images) := by
  induction xs generalizing round with
  | nil => exact .nil
  | cons x xs ih =>
    rw [forEach, andThen_of_not_trapped (htrap round x), List.flatMap_cons]
    exact List.rel_append (hbody round x) (ih (round + 1))

theorem forEach_forall {α : Type} {P : Write → Prop} {body : Nat → α → Outcome}
    (hbody : ∀ round x, ∀ write ∈ (body round x).writes, P write) (round : Nat) (xs : List α) :
    ∀ write ∈ (forEach body round xs).writes, P write := by
  induction xs generalizing round with
  | nil => exact fun write hwrite => absurd hwrite List.not_mem_nil
  | cons x xs ih =>
    rw [forEach, andThen]
    split
    · exact hbody round x
    · intro write hwrite
      rcases List.mem_append.mp hwrite with hwrite | hwrite
      · exact hbody round x write hwrite
      · exact ih (round + 1) write hwrite

/-- Where every round is about its own element, what is about one of them is the writes of
its round, or nothing. -/
theorem forEach_filter {α κ : Type} [DecidableEq κ] {about : Write → Option κ} {key : α → κ}
    {body : Nat → α → Outcome} (htrap : ∀ round x, (body round x).trapped = false)
    (hbody : ∀ round x, ∀ write ∈ (body round x).writes, about write = some (key x))
    (round : Nat) (xs : List α) (hnodup : (xs.map key).Nodup) (k : κ) :
    (k ∉ xs.map key ∧ (forEach body round xs).writes.filter (about · = some k) = []) ∨
      ∃ later, ∃ x ∈ xs, key x = k ∧
        (forEach body round xs).writes.filter (about · = some k) = (body later x).writes := by
  have hround : ∀ later x, (body later x).writes.filter (about · = some k) =
      if key x = k then (body later x).writes else [] := by
    intro later x
    split
    · next hkey =>
      rw [List.filter_eq_self]
      intro write hwrite
      simp [hbody later x write hwrite, hkey]
    · next hkey =>
      rw [List.filter_eq_nil_iff]
      intro write hwrite
      simp [hbody later x write hwrite, hkey]
  induction xs generalizing round with
  | nil => exact .inl ⟨List.not_mem_nil, rfl⟩
  | cons x xs ih =>
    rw [List.map_cons, List.nodup_cons] at hnodup
    rw [forEach, andThen_of_not_trapped (htrap round x), List.filter_append, hround]
    rcases ih (round + 1) hnodup.2 with ⟨hnone, hrest⟩ | ⟨later, y, hy, hkey, hrest⟩
    · rw [hrest, List.append_nil]
      by_cases hx : key x = k
      · exact .inr ⟨round, x, List.mem_cons_self, hx, if_pos hx⟩
      · refine .inl ⟨?_, if_neg hx⟩
        rw [List.map_cons, List.mem_cons, not_or]
        exact ⟨fun h => hx h.symm, hnone⟩
    · have hx : key x ≠ k := by
        intro hx
        rw [hx, ← hkey] at hnodup
        exact hnodup.1 (List.mem_map_of_mem hy)
      rw [if_neg hx, List.nil_append]
      exact .inr ⟨later, y, List.mem_cons_of_mem x hy, hkey, hrest⟩

theorem forEach_filterMap {α β : Type} {pick : Write → Option β} {picked : Nat → β}
    {body : Nat → α → Outcome} (htrap : ∀ round x, (body round x).trapped = false)
    (hbody : ∀ round x, (body round x).writes.filterMap pick = [picked round])
    (round : Nat) (xs : List α) :
    (forEach body round xs).writes.filterMap pick = (List.range' round xs.length).map picked := by
  induction xs generalizing round with
  | nil => rfl
  | cons x xs ih =>
    rw [forEach, andThen_of_not_trapped (htrap round x), List.filterMap_append, hbody, ih,
      List.length_cons, List.range'_succ, List.map_cons, List.singleton_append]

theorem writtenAt_forEach_none {α : Type} {body : Nat → α → Outcome} {query : Path}
    (hbody : ∀ round x, writtenAt query (body round x).writes = none)
    (round : Nat) (xs : List α) : writtenAt query (forEach body round xs).writes = none :=
  writtenAt_eq_none_iff.mpr
    (forEach_forall (fun round x => writtenAt_eq_none_iff.mp (hbody round x)) round xs)

theorem andThen_forall {P : Write → Prop} {first second : Outcome}
    (hfirst : ∀ write ∈ first.writes, P write) (hsecond : ∀ write ∈ second.writes, P write) :
    ∀ write ∈ (first.andThen second).writes, P write := by
  unfold andThen
  split
  · exact hfirst
  · intro write hwrite
    rcases List.mem_append.mp hwrite with hwrite | hwrite
    · exact hfirst write hwrite
    · exact hsecond write hwrite

/-! Where a write of a sequence or of a loop comes from. -/

theorem mem_andThen {first second : Outcome} {write : Write}
    (h : write ∈ (first.andThen second).writes) :
    write ∈ first.writes ∨ (first.trapped = false ∧ write ∈ second.writes) := by
  unfold andThen at h
  split at h
  · exact .inl h
  · next htrap =>
    rcases List.mem_append.mp h with h | h
    · exact .inl h
    · exact .inr ⟨Bool.not_eq_true _ ▸ htrap, h⟩

theorem mem_forEach {α : Type} {body : Nat → α → Outcome} {round : Nat} {xs : List α}
    {write : Write} (h : write ∈ (forEach body round xs).writes) :
    ∃ later, ∃ x ∈ xs, write ∈ (body later x).writes := by
  induction xs generalizing round with
  | nil => exact absurd h List.not_mem_nil
  | cons x xs ih =>
    rcases mem_andThen h with h | h
    · exact ⟨round, x, List.mem_cons_self, h⟩
    · obtain ⟨later, y, hy, hwrite⟩ := ih h.2
      exact ⟨later, y, List.mem_cons_of_mem x hy, hwrite⟩

end Outcome

end GetTogether.Realtime
