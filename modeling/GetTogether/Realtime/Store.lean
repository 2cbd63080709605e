import Mathlib.Data.List.Dedup
import Mathlib.Data.List.Sort

/-! A tree database addressed by paths of keys. Only scalars are stored; a node
exists exactly when a scalar lies at or below it, so an empty array and a
removed node are the same thing: nothing to read. Arrays are written and read
whole, hence count as scalars. -/
namespace GetTogether.Realtime

abbrev Path := List String

inductive Scalar where
  | string (value : String)
  | bool (value : Bool)
  | array (elements : List String)
  deriving DecidableEq, Repr

/-- An array without elements has no child, so writing it stores nothing. -/
def Scalar.stored : Scalar → Bool
  | .array [] => false
  | _ => true

def Scalar.string? : Scalar → Option String
  | .string value => some value
  | _ => none

def Scalar.bool? : Scalar → Option Bool
  | .bool value => some value
  | _ => none

def Scalar.array? : Scalar → Option (List String)
  | .array elements => some elements
  | _ => none

/-- A value to be written: the scalars below a node by their relative paths. -/
abbrev Tree := List (Path × Scalar)

def Tree.scalar (value : Scalar) : Tree := [([], value)]

def Tree.object (fields : List (String × Scalar)) : Tree :=
  fields.map fun field => ([field.1], field.2)

def Tree.get (tree : Tree) (path : Path) : Option Scalar :=
  (tree.filter (·.2.stored)).lookup path

@[simp] theorem Scalar.stored_string (value : String) : (Scalar.string value).stored = true := rfl

@[simp] theorem Scalar.stored_bool (value : Bool) : (Scalar.bool value).stored = true := rfl

@[simp] theorem Scalar.stored_array (elements : List String) :
    (Scalar.array elements).stored = !elements.isEmpty := by
  cases elements <;> rfl

@[simp] theorem Tree.get_nil (path : Path) : Tree.get [] path = none := rfl

@[simp] theorem Tree.get_scalar (value : Scalar) :
    (Tree.scalar value).get [] = if value.stored then some value else none := by
  cases h : value.stored <;> simp [Tree.get, Tree.scalar, h]

@[simp] theorem Tree.get_object_nil (path : Path) : (Tree.object []).get path = none := rfl

@[simp] theorem Tree.get_object_cons (name key : String) (value : Scalar)
    (rest : List (String × Scalar)) : (Tree.object ((name, value) :: rest)).get [key] =
      if key = name ∧ value.stored then some value else (Tree.object rest).get [key] := by
  cases h : value.stored
  · simp [Tree.get, Tree.object, h]
  · by_cases hkey : key = name
    · simp [Tree.get, Tree.object, h, hkey]
    · simp [Tree.get, Tree.object, h, hkey, List.lookup_cons, beq_eq_false_iff_ne.mpr]

structure Store where
  leaves : List (Path × Scalar)
  stored : ∀ leaf ∈ leaves, leaf.2.stored = true

namespace Store

def empty : Store := ⟨[], by simp⟩

def get (store : Store) (path : Path) : Option Scalar := store.leaves.lookup path

/-- Whatever lay at or below the path is replaced. -/
def setValue (store : Store) (path : Path) (tree : Tree) : Store where
  leaves := (tree.filter (·.2.stored)).map (fun leaf => (path ++ leaf.1, leaf.2)) ++
    store.leaves.filter (fun leaf => ¬ path <+: leaf.1)
  stored := by
    intro leaf hleaf
    rcases List.mem_append.mp hleaf with hnew | hold
    · obtain ⟨source, hsource, rfl⟩ := List.mem_map.mp hnew
      exact (List.mem_filter.mp hsource).2
    · exact store.stored leaf (List.mem_filter.mp hold).1

def removeValue (store : Store) (path : Path) : Store := store.setValue path []

/-- Only the named children are replaced; the node is created when missing. -/
def updateChildValues (store : Store) (path : Path) (fields : List (String × Scalar)) : Store :=
  fields.foldl (fun current field => current.setValue (path ++ [field.1]) (.scalar field.2)) store

@[simp] theorem get_empty (path : Path) : empty.get path = none := rfl

private theorem lookup_append {α β : Type} [BEq α] (left right : List (α × β)) (key : α) :
    (left ++ right).lookup key = (left.lookup key).or (right.lookup key) := by
  induction left with
  | nil => simp
  | cons entry rest ih =>
    obtain ⟨k, v⟩ := entry
    simp only [List.cons_append, List.lookup_cons]
    split <;> simp [ih]

private theorem lookup_below (path query : Path) (entries : List (Path × Scalar)) :
    (entries.map fun leaf => (path ++ leaf.1, leaf.2)).lookup query =
      if path <+: query then entries.lookup (query.drop path.length) else none := by
  induction entries with
  | nil => simp
  | cons entry rest ih =>
    obtain ⟨k, v⟩ := entry
    simp only [List.map_cons, List.lookup_cons, ih]
    by_cases hbelow : path <+: query
    · obtain ⟨tail, rfl⟩ := hbelow
      have heq : (path ++ tail == path ++ k) = (tail == k) := by
        rw [Bool.eq_iff_iff]
        simp
      simp [heq]
    · have hne : (query == path ++ k) = false := by
        rw [beq_eq_false_iff_ne]
        rintro rfl
        exact hbelow (List.prefix_append path k)
      simp [hbelow, hne]

private theorem lookup_outside (path query : Path) (entries : List (Path × Scalar)) :
    (entries.filter fun leaf => ¬ path <+: leaf.1).lookup query =
      if path <+: query then none else entries.lookup query := by
  induction entries with
  | nil => simp
  | cons entry rest ih =>
    obtain ⟨k, v⟩ := entry
    by_cases hk : path <+: k
    · rw [List.filter_cons_of_neg (by simpa using hk), ih]
      by_cases hq : path <+: query
      · simp [hq]
      · have hne : (query == k) = false := by
          rw [beq_eq_false_iff_ne]
          rintro rfl
          exact hq hk
        simp [hq, List.lookup_cons, hne]
    · rw [List.filter_cons_of_pos (by simpa using hk)]
      simp only [List.lookup_cons, ih]
      by_cases heq : query = k
      · subst heq
        simp [hk]
      · have hne : (query == k) = false := beq_eq_false_iff_ne.mpr heq
        simp [hne]

theorem get_setValue (store : Store) (path query : Path) (tree : Tree) :
    (store.setValue path tree).get query =
      if path <+: query then tree.get (query.drop path.length) else store.get query := by
  unfold get setValue Tree.get
  rw [lookup_append, lookup_below, lookup_outside]
  by_cases hbelow : path <+: query <;> simp [hbelow]

def string? (store : Store) (path : Path) : Option String := (store.get path).bind Scalar.string?

def bool? (store : Store) (path : Path) : Option Bool := (store.get path).bind Scalar.bool?

def array? (store : Store) (path : Path) : Option (List String) :=
  (store.get path).bind Scalar.array?

theorem string?_eq_some {store : Store} {path : Path} {value : String} :
    store.string? path = some value ↔ store.get path = some (.string value) := by
  rw [string?, Option.bind_eq_some_iff]
  constructor
  · rintro ⟨scalar, h, hscalar⟩
    cases scalar <;> simp [Scalar.string?] at hscalar
    rw [h, hscalar]
  · exact fun h => ⟨_, h, rfl⟩

theorem bool?_eq_some {store : Store} {path : Path} {value : Bool} :
    store.bool? path = some value ↔ store.get path = some (.bool value) := by
  rw [bool?, Option.bind_eq_some_iff]
  constructor
  · rintro ⟨scalar, h, hscalar⟩
    cases scalar <;> simp [Scalar.bool?] at hscalar
    rw [h, hscalar]
  · exact fun h => ⟨_, h, rfl⟩

theorem array?_eq_some {store : Store} {path : Path} {value : List String} :
    store.array? path = some value ↔ store.get path = some (.array value) := by
  rw [array?, Option.bind_eq_some_iff]
  constructor
  · rintro ⟨scalar, h, hscalar⟩
    cases scalar <;> simp [Scalar.array?] at hscalar
    rw [h, hscalar]
  · exact fun h => ⟨_, h, rfl⟩

/-- A node exists when a scalar lies at or below it. -/
def contains (store : Store) (path : Path) : Bool :=
  store.leaves.any fun leaf => path <+: leaf.1

/-- The keys of the children of a node, in key order. -/
def children (store : Store) (path : Path) : List String :=
  ((store.leaves.filterMap fun leaf =>
    if path <+: leaf.1 then leaf.1[path.length]? else none).dedup).insertionSort (· ≤ ·)

private theorem mem_leaves_of_get {store : Store} {path : Path} {value : Scalar}
    (h : store.get path = some value) : (path, value) ∈ store.leaves := by
  obtain ⟨before, after, heq, -⟩ := List.lookup_eq_some_iff.mp h
  rw [heq]
  simp

private theorem get_of_mem_leaves {store : Store} {leaf : Path × Scalar}
    (h : leaf ∈ store.leaves) : ∃ value, store.get leaf.1 = some value := by
  rw [← Option.ne_none_iff_exists']
  intro hnone
  have := List.lookup_eq_none_iff.mp hnone leaf h
  simp at this

theorem contains_iff (store : Store) (path : Path) :
    store.contains path = true ↔ ∃ rest value, store.get (path ++ rest) = some value := by
  simp only [contains, List.any_eq_true, decide_eq_true_eq]
  constructor
  · rintro ⟨⟨_, _⟩, hleaf, rest, rfl⟩
    exact ⟨rest, get_of_mem_leaves hleaf⟩
  · rintro ⟨rest, value, h⟩
    exact ⟨_, mem_leaves_of_get h, List.prefix_append path rest⟩

theorem mem_children (store : Store) (path : Path) (key : String) :
    key ∈ store.children path ↔ ∃ rest value, store.get (path ++ key :: rest) = some value := by
  simp only [children, List.mem_insertionSort, List.mem_dedup, List.mem_filterMap,
    Option.ite_none_right_eq_some]
  constructor
  · rintro ⟨⟨_, _⟩, hleaf, ⟨rest, rfl⟩, hkey⟩
    cases rest with
    | nil => simp at hkey
    | cons head tail =>
      obtain rfl : head = key := by simpa using hkey
      exact ⟨tail, get_of_mem_leaves hleaf⟩
  · rintro ⟨rest, value, h⟩
    refine ⟨_, mem_leaves_of_get h, List.prefix_append path (key :: rest), ?_⟩
    simp

theorem mem_children_iff_contains (store : Store) (path : Path) (key : String) :
    key ∈ store.children path ↔ store.contains (path ++ [key]) = true := by
  rw [mem_children, contains_iff]
  simp only [List.append_assoc, List.singleton_append]

theorem contains_of_get_eq {store store' : Store} {path : Path}
    (h : ∀ rest, store'.get (path ++ rest) = store.get (path ++ rest)) :
    store'.contains path = store.contains path := by
  rw [Bool.eq_iff_iff, contains_iff, contains_iff]
  simp only [h]

theorem nodup_children (store : Store) (path : Path) : (store.children path).Nodup := by
  unfold children
  rw [(List.perm_insertionSort _ _).nodup_iff]
  exact List.nodup_dedup _

theorem children_of_get_eq {store store' : Store} {path : Path}
    (h : ∀ rest, store'.get (path ++ rest) = store.get (path ++ rest)) :
    store'.children path = store.children path := by
  have hmem : ∀ key, key ∈ store'.children path ↔ key ∈ store.children path := by
    intro key
    rw [mem_children, mem_children]
    simp only [h]
  have hperm : (store'.children path).Perm (store.children path) :=
    (List.perm_ext_iff_of_nodup (store'.nodup_children path) (store.nodup_children path)).mpr hmem
  have hsorted : ∀ store : Store, (store.children path).Pairwise (· ≤ ·) := by
    intro store
    have : Std.Total fun a b : String => a ≤ b := ⟨String.le_total⟩
    have : IsTrans String fun a b => a ≤ b := ⟨fun a b c => String.le_trans⟩
    exact List.pairwise_insertionSort _ _
  exact hperm.eq_of_pairwise (fun a b _ _ => String.le_antisymm) (hsorted store') (hsorted store)

theorem get_ne_array_nil (store : Store) (path : Path) : store.get path ≠ some (.array []) := by
  intro h
  have := store.stored _ (mem_leaves_of_get h)
  simp [Scalar.stored] at this

end Store

/-! The children of a snapshot are cast one by one; one failed cast fails all. -/

theorem mem_mapM_iff {α β : Type} {f : α → Option β} {xs : List α} {ys : List β}
    (h : xs.mapM f = some ys) (y : β) : y ∈ ys ↔ ∃ x ∈ xs, f x = some y := by
  induction xs generalizing ys with
  | nil =>
    simp only [List.mapM_nil, Option.pure_def, Option.some.injEq] at h
    simp [← h]
  | cons x xs ih =>
    simp only [List.mapM_cons, Option.bind_eq_bind, Option.bind_eq_some_iff, Option.pure_def,
      Option.some.injEq] at h
    obtain ⟨z, hz, zs, hzs, rfl⟩ := h
    simp [ih hzs, hz, eq_comm]

/-- Where every value repeats the key it was read from, the values come in the order of
the keys. -/
theorem mapM_map_eq {α β : Type} {f : α → Option β} {key : β → α} {xs : List α} {ys : List β}
    (h : xs.mapM f = some ys) (hkey : ∀ x y, f x = some y → key y = x) : ys.map key = xs := by
  induction xs generalizing ys with
  | nil =>
    simp only [List.mapM_nil, Option.pure_def, Option.some.injEq] at h
    rw [← h, List.map_nil]
  | cons x xs ih =>
    simp only [List.mapM_cons, Option.bind_eq_bind, Option.bind_eq_some_iff, Option.pure_def,
      Option.some.injEq] at h
    obtain ⟨y, hy, zs, hzs, rfl⟩ := h
    rw [List.map_cons, hkey x y hy, ih hzs]

theorem mapM_eq_map {α β : Type} {f : α → Option β} {g : α → β} {xs : List α}
    (h : ∀ x ∈ xs, f x = some (g x)) : xs.mapM f = some (xs.map g) := by
  induction xs with
  | nil => rfl
  | cons x xs ih =>
    have hrest := ih fun y hy => h y (List.mem_cons_of_mem x hy)
    rw [List.mapM_cons, h x List.mem_cons_self, hrest]
    rfl

theorem mapM_isSome_iff {α β : Type} {f : α → Option β} {xs : List α} :
    (xs.mapM f).isSome = true ↔ ∀ x ∈ xs, (f x).isSome = true := by
  induction xs with
  | nil => simp
  | cons x xs ih =>
    rw [List.mapM_cons]
    cases hx : f x with
    | none => simp [hx]
    | some z =>
      cases hxs : xs.mapM f with
      | none => simpa [hxs, hx] using ih
      | some zs => simpa [hxs, hx] using ih

/-- A table with nothing but whole records in it, each with its key, is read in full. -/
theorem Store.readTable {α : Type} (db : Store) (table : Path) (read : String → Option α)
    (key : α → String) (hread : ∀ k ∈ db.children table, ∃ x, read k = some x ∧ key x = k)
    (hnode : ∀ k x, read k = some x → k ∈ db.children table) :
    ∃ xs, (db.children table).mapM read = some xs ∧ (xs.map key).Nodup ∧
      ∀ x, x ∈ xs ↔ read (key x) = some x := by
  have hkey : ∀ k x, read k = some x → key x = k := by
    intro k x hx
    obtain ⟨stored, hstored, hkey⟩ := hread k (hnode k x hx)
    obtain rfl : x = stored := Option.some.inj (hx.symm.trans hstored)
    exact hkey
  have hcast : ((db.children table).mapM read).isSome = true := by
    rw [mapM_isSome_iff]
    intro k hk
    obtain ⟨x, hx, -⟩ := hread k hk
    exact Option.isSome_of_eq_some hx
  obtain ⟨xs, hxs⟩ := Option.isSome_iff_exists.mp hcast
  refine ⟨xs, hxs, ?_, fun x => ?_⟩
  · rw [mapM_map_eq hxs hkey]
    exact db.nodup_children table
  · rw [mem_mapM_iff hxs]
    constructor
    · intro h
      obtain ⟨k, -, hk⟩ := h
      rwa [hkey k x hk]
    · exact fun h => ⟨key x, hnode _ x h, h⟩

end GetTogether.Realtime
