import GetTogether.Realtime.Handler

/-! Handlers that run at the same time. Where no write of one leaves something else at a
path than a write of another, their writes may reach the database mixed in any way: no
reader can tell the result from that of one handler after the other. -/
namespace GetTogether.Realtime

/-- All of two lists in one, each in its own order. -/
inductive Interleaving {α : Type} : List α → List α → List α → Prop
  | nil : Interleaving [] [] []
  | left {x : α} {xs ys zs : List α} : Interleaving xs ys zs → Interleaving (x :: xs) ys (x :: zs)
  | right {y : α} {xs ys zs : List α} : Interleaving xs ys zs → Interleaving xs (y :: ys) (y :: zs)

theorem Interleaving.only_left {α : Type} (xs : List α) : Interleaving xs [] xs := by
  induction xs with
  | nil => exact .nil
  | cons x xs ih => exact .left ih

theorem Interleaving.swapped {α : Type} (xs ys : List α) : Interleaving xs ys (ys ++ xs) := by
  induction ys with
  | nil => exact .only_left xs
  | cons y ys ih => exact .right ih

/-- All of any number of lists in one, each in its own order. -/
inductive Mixed {α : Type} : List (List α) → List α → Prop
  | nil : Mixed [] []
  | cons {xs mixed all : List α} {rest : List (List α)} :
      Mixed rest mixed → Interleaving xs mixed all → Mixed (xs :: rest) all

theorem Interleaving.mem {α : Type} {xs ys zs : List α} (h : Interleaving xs ys zs) {x : α} :
    x ∈ zs ↔ x ∈ xs ∨ x ∈ ys := by
  induction h with
  | nil => simp
  | left _ ih => simp [ih, or_assoc]
  | right _ ih => simp [ih, or_left_comm]

theorem Mixed.mem {α : Type} {lists : List (List α)} {all : List α} (h : Mixed lists all) {x : α} :
    x ∈ all ↔ ∃ xs ∈ lists, x ∈ xs := by
  induction h with
  | nil => simp
  | cons _ hmerge ih => simp [hmerge.mem, ih]

/-- The writes leave the same wherever both leave something. -/
def Write.Agrees (write other : Write) : Prop := ∀ query,
  write.writtenAt query = none ∨ other.writtenAt query = none ∨
    write.writtenAt query = other.writtenAt query

/-- What a list of writes leaves at a path is agreed with by a write that agrees with each. -/
theorem agrees_writtenAt {write : Write} {writes : List Write}
    (h : ∀ other ∈ writes, other.Agrees write) (query : Path) :
    writtenAt query writes = none ∨ write.writtenAt query = none ∨
      writtenAt query writes = write.writtenAt query := by
  cases hwritten : writtenAt query writes with
  | none => exact .inl rfl
  | some result =>
    obtain ⟨other, hother, hresult⟩ := exists_of_writtenAt hwritten
    have hagree := h other hother query
    rw [hresult] at hagree
    exact .inr (hagree.resolve_left (by simp))

theorem writtenAt_interleaving {first second mixed : List Write}
    (h : Interleaving first second mixed)
    (hagree : ∀ write ∈ first, ∀ other ∈ second, write.Agrees other) (query : Path) :
    writtenAt query mixed = writtenAt query (first ++ second) := by
  induction h with
  | nil => rfl
  | left _ ih =>
    have hrest := ih fun write hwrite => hagree write (List.mem_cons_of_mem _ hwrite)
    rw [writtenAt_cons, hrest, List.cons_append, writtenAt_cons]
  | right _ ih =>
    have hrest := ih fun write hwrite other hother =>
      hagree write hwrite other (List.mem_cons_of_mem _ hother)
    have hcommute := agrees_writtenAt
      (fun write hwrite => hagree write hwrite _ List.mem_cons_self) query
    rw [writtenAt_cons, hrest, writtenAt_append, writtenAt_append, writtenAt_cons, Option.or_assoc,
      Option.or_assoc]
    congr 1
    rcases hcommute with hnone | hnone | hsame
    · rw [hnone, Option.or_none, Option.none_or]
    · rw [hnone, Option.or_none, Option.none_or]
    · rw [hsame]

/-- No reader can tell the stores apart. -/
structure Store.Alike (db db' : Store) : Prop where
  get : ∀ path, db'.get path = db.get path
  contains : ∀ path, db'.contains path = db.contains path
  children : ∀ path, db'.children path = db.children path

theorem Store.Alike.of_get {db db' : Store} (h : ∀ path, db'.get path = db.get path) :
    db.Alike db' where
  get := h
  contains path := Store.contains_of_get_eq fun rest => h (path ++ rest)
  children path := Store.children_of_get_eq fun rest => h (path ++ rest)

theorem writtenAt_mixed {lists : List (List Write)} {all : List Write} (h : Mixed lists all)
    (hagree : lists.Pairwise fun first second =>
      ∀ write ∈ first, ∀ other ∈ second, write.Agrees other) (query : Path) :
    writtenAt query all = writtenAt query lists.flatten := by
  induction h with
  | nil => rfl
  | cons hrest hmerge ih =>
    rw [List.pairwise_cons] at hagree
    rw [writtenAt_interleaving hmerge, List.flatten_cons, writtenAt_append, writtenAt_append,
      ih hagree.2]
    intro write hwrite other hother
    obtain ⟨second, hsecond, hmem⟩ := hrest.mem.mp hother
    exact hagree.1 second hsecond write hwrite other hmem

/-- Handlers that agree may be mixed in any way. -/
theorem alike_mixed (db : Store) {handlers : List (List Write)} {all : List Write}
    (h : Mixed handlers all)
    (hagree : handlers.Pairwise fun first second =>
      ∀ write ∈ first, ∀ other ∈ second, write.Agrees other) :
    (db.applyAll handlers.flatten).Alike (db.applyAll all) := by
  apply Store.Alike.of_get
  intro path
  rw [get_applyAll, get_applyAll, writtenAt_mixed h hagree]

/-! Writes of different topics agree. -/

/-- The path of the node a write is about. -/
def Write.path : Write → Path
  | .setValue path _ => path
  | .updateChildValues path _ => path
  | .removeValue path => path

theorem fieldsWrittenAt_prefix {path query : Path} {fields : List (String × Scalar)}
    (h : fieldsWrittenAt path query fields ≠ none) : path <+: query := by
  induction fields with
  | nil => exact absurd rfl h
  | cons field fields ih =>
    by_cases hrest : fieldsWrittenAt path query fields = none
    · rw [fieldsWrittenAt, hrest, Option.none_or, Tree.writtenAt] at h
      by_cases hbelow : path ++ [field.1] <+: query
      · exact (List.prefix_append path [field.1]).trans hbelow
      · rw [if_neg hbelow] at h
        exact absurd rfl h
    · exact ih hrest

theorem Write.path_prefix {write : Write} {query : Path} (h : write.writtenAt query ≠ none) :
    write.path <+: query := by
  cases write with
  | setValue path value =>
    by_contra hbelow
    rw [Write.writtenAt_setValue] at h
    exact h (if_neg hbelow)
  | updateChildValues path fields => exact fieldsWrittenAt_prefix h
  | removeValue path =>
    by_contra hbelow
    rw [Write.writtenAt_removeValue] at h
    exact h (if_neg hbelow)

/-- What is below a node has the topic of the node. -/
def Hereditary {τ : Type} (topic : Path → Option τ) : Prop :=
  ∀ path rest subject, topic path = some subject → topic (path ++ rest) = some subject

theorem Write.topic_of_writtenAt {τ : Type} {topic : Path → Option τ} (htopic : Hereditary topic)
    {write : Write} {subject : τ} (hwrite : topic write.path = some subject) {query : Path}
    (h : write.writtenAt query ≠ none) : topic query = some subject := by
  obtain ⟨rest, rfl⟩ := Write.path_prefix h
  exact htopic write.path rest subject hwrite

theorem Write.agrees_of_topic {τ : Type} {topic : Path → Option τ} (htopic : Hereditary topic)
    {write other : Write} {subject subject' : τ} (hwrite : topic write.path = some subject)
    (hother : topic other.path = some subject') (hne : subject ≠ subject') :
    write.Agrees other := by
  intro query
  by_cases hleaves : write.writtenAt query = none
  · exact .inl hleaves
  · by_cases hleaves' : other.writtenAt query = none
    · exact .inr (.inl hleaves')
    · have hsame := (Write.topic_of_writtenAt htopic hwrite hleaves).symm.trans
        (Write.topic_of_writtenAt htopic hother hleaves')
      exact absurd (Option.some.inj hsame) hne

theorem Write.agrees_updateChildValues (path : Path) (field field' : String) (value : Scalar) :
    (Write.updateChildValues path [(field, value)]).Agrees
      (.updateChildValues path [(field', value)]) := by
  intro query
  rw [Write.writtenAt_updateChildValues, Write.writtenAt_updateChildValues]
  by_cases hbelow : path ++ [field] <+: query
  · by_cases hbelow' : path ++ [field'] <+: query
    · have hlength : (path ++ [field]).length = (path ++ [field']).length := by simp
      have hsame := (List.prefix_of_prefix_length_le hbelow hbelow' hlength.le).eq_of_length hlength
      exact .inr (.inr (by rw [hsame]))
    · exact .inr (.inl (if_neg hbelow'))
  · exact .inl (if_neg hbelow)

end GetTogether.Realtime
