import Mathlib.Data.List.Perm.Basic
import Mathlib.Data.List.Dedup
import Mathlib.Data.Set.Function

/-! Sets whose elements count as equal when their keys are equal, as arrays of
representatives. The order in which such a set lists its elements is left open:
an enumeration may permute them in any way. -/
namespace GetTogether.Realtime.KeyedSet

universe u v w

variable {α : Type u} {κ : Type v} [DecidableEq κ] (key : α → κ)

/-- Inserting an element whose key is already there changes nothing. -/
def insert (elements : List α) (x : α) : List α :=
  if key x ∈ elements.map key then elements else elements ++ [x]

def ofArray (xs : List α) : List α := xs.foldl (insert key) []

def subtracting (elements removed : List α) : List α :=
  elements.filter fun x => key x ∉ removed.map key

private theorem mem_foldl_insert {x : α} (xs elements : List α)
    (h : x ∈ xs.foldl (insert key) elements) : x ∈ elements ∨ x ∈ xs := by
  induction xs generalizing elements with
  | nil => exact .inl h
  | cons y ys ih =>
    rcases ih _ h with h | h
    · unfold insert at h
      split at h
      · exact .inl h
      · rcases List.mem_append.mp h with h | h
        · exact .inl h
        · exact .inr (List.mem_cons.mpr (.inl (List.mem_singleton.mp h)))
    · exact .inr (List.mem_cons_of_mem y h)

private theorem keys_foldl_insert (xs elements : List α) (k : κ) :
    k ∈ (xs.foldl (insert key) elements).map key ↔
      k ∈ elements.map key ∨ k ∈ xs.map key := by
  induction xs generalizing elements with
  | nil => simp
  | cons y ys ih =>
    rw [List.foldl_cons, ih, List.map_cons, List.mem_cons]
    unfold insert
    split
    · next hy =>
      constructor
      · rintro (h | h)
        · exact .inl h
        · exact .inr (.inr h)
      · rintro (h | rfl | h)
        · exact .inl h
        · exact .inl hy
        · exact .inr h
    · rw [List.map_append, List.mem_append, List.map_singleton, List.mem_singleton, or_assoc]

private theorem nodup_foldl_insert (xs elements : List α) (h : (elements.map key).Nodup) :
    ((xs.foldl (insert key) elements).map key).Nodup := by
  induction xs generalizing elements with
  | nil => exact h
  | cons y ys ih =>
    rw [List.foldl_cons]
    apply ih
    unfold insert
    split
    · exact h
    · next hy =>
      rw [List.map_append, List.nodup_append]
      refine ⟨h, by simp, ?_⟩
      intro a ha b hb
      rw [List.map_singleton, List.mem_singleton] at hb
      exact hb ▸ ne_of_mem_of_not_mem ha hy

theorem mem_of_mem_ofArray {x : α} {xs : List α} (h : x ∈ ofArray key xs) : x ∈ xs :=
  (mem_foldl_insert key xs [] h).resolve_left List.not_mem_nil

/-- Every element has a representative with its key, and no key is invented. -/
theorem keys_ofArray (xs : List α) (k : κ) :
    k ∈ (ofArray key xs).map key ↔ k ∈ xs.map key := by
  rw [ofArray, keys_foldl_insert]
  simp

theorem nodup_ofArray (xs : List α) : ((ofArray key xs).map key).Nodup :=
  nodup_foldl_insert key xs [] List.nodup_nil

private theorem mem_foldl_insert_iff {x : α} (xs elements : List α) :
    x ∈ xs.foldl (insert key) elements ↔
      x ∈ elements ∨ key x ∉ elements.map key ∧ xs.find? (key · = key x) = some x := by
  induction xs generalizing elements with
  | nil => simp
  | cons y ys ih =>
    rw [List.foldl_cons, ih, List.find?_cons]
    unfold insert
    by_cases hsame : key y = key x
    · by_cases hthere : key y ∈ elements.map key
      · have hx : key x ∈ elements.map key := hsame ▸ hthere
        simp only [hthere, if_true, hx, not_true_eq_false, false_and]
      · have hx : key x ∉ elements.map key := hsame ▸ hthere
        simp [hx, hsame, eq_comm]
    · split
      · simp [hsame]
      · have hne : key x ≠ key y := fun h => hsame h.symm
        have hxy : x ≠ y := fun h => hsame (congrArg key h.symm)
        simp [hsame, hne, hxy]

/-- An element represents its key when it is the first one with that key. -/
theorem mem_ofArray_iff {x : α} {xs : List α} :
    x ∈ ofArray key xs ↔ xs.find? (key · = key x) = some x := by
  rw [ofArray, mem_foldl_insert_iff]
  simp

theorem mem_subtracting {x : α} {elements removed : List α} :
    x ∈ subtracting key elements removed ↔ x ∈ elements ∧ key x ∉ removed.map key := by
  simp [subtracting]

theorem nodup_subtracting {elements : List α} (removed : List α)
    (h : (elements.map key).Nodup) : ((subtracting key elements removed).map key).Nodup :=
  h.sublist (List.filter_sublist.map key)

/-! The elements may have names, and the keys may be hashes of the names. The operations
by key then do what they would do with the names as far as the hash tells those apart. -/

section Names

variable {ν : Type w} {key} {name : α → ν} {hash : ν → κ}

omit [DecidableEq κ] in
theorem nodup_names (hkey : ∀ x, key x = hash (name x)) {elements : List α}
    (h : (elements.map key).Nodup) : (elements.map name).Nodup := by
  have hhash : elements.map key = (elements.map name).map hash := by
    rw [List.map_map]
    exact List.map_congr_left fun x _ => hkey x
  exact List.Nodup.of_map hash (hhash ▸ h)

theorem mem_names_subtracting (hkey : ∀ x, key x = hash (name x)) {elements removed : List α}
    {n : ν} : n ∈ (subtracting key elements removed).map name ↔
      n ∈ elements.map name ∧ hash n ∉ (removed.map name).map hash := by
  have hkeys : removed.map key = (removed.map name).map hash := by
    rw [List.map_map]
    exact List.map_congr_left fun x _ => hkey x
  rw [← hkeys]
  constructor
  · intro hn
    obtain ⟨x, hx, rfl⟩ := List.mem_map.mp hn
    rw [mem_subtracting, hkey] at hx
    exact ⟨List.mem_map_of_mem hx.1, hx.2⟩
  · rintro ⟨hn, hkept⟩
    obtain ⟨x, hx, rfl⟩ := List.mem_map.mp hn
    apply List.mem_map_of_mem
    rw [mem_subtracting, hkey]
    exact ⟨hx, hkept⟩

variable [DecidableEq ν]

theorem mem_ofArray_id {names : List ν} {n : ν} : n ∈ ofArray id names ↔ n ∈ names := by
  have hmem := keys_ofArray id names n
  rwa [List.map_id, List.map_id] at hmem

theorem nodup_ofArray_id (names : List ν) : (ofArray id names).Nodup := by
  have hnodup := nodup_ofArray id names
  rwa [List.map_id] at hnodup

theorem mem_subtracting_id {names removed : List ν} {n : ν} :
    n ∈ subtracting id names removed ↔ n ∈ names ∧ n ∉ removed := by
  rw [mem_subtracting, List.map_id, id]

/-- A set made by key has an element of every name exactly when no two names hash alike. -/
theorem names_ofArray_iff (hkey : ∀ x, key x = hash (name x)) (xs : List α) :
    ((ofArray key xs).map name).Perm (ofArray id (xs.map name)) ↔
      Set.InjOn hash {n | n ∈ xs.map name} := by
  rw [List.perm_ext_iff_of_nodup (nodup_names hkey (nodup_ofArray key xs))
    (nodup_ofArray_id (xs.map name))]
  simp only [mem_ofArray_id]
  constructor
  · intro hsame n hn m hm hhash
    obtain ⟨x, hx, rfl⟩ := List.mem_map.mp ((hsame n).mpr hn)
    obtain ⟨y, hy, rfl⟩ := List.mem_map.mp ((hsame m).mpr hm)
    have hkeys : key x = key y := by rw [hkey, hkey, hhash]
    rw [List.inj_on_of_nodup_map (nodup_ofArray key xs) hx hy hkeys]
  · intro hinj n
    constructor
    · intro hn
      obtain ⟨x, hx, rfl⟩ := List.mem_map.mp hn
      exact List.mem_map_of_mem (mem_of_mem_ofArray key hx)
    · intro hn
      obtain ⟨x, hx, rfl⟩ := List.mem_map.mp hn
      -- The representative of the key has the same name.
      obtain ⟨y, hy, hkeys⟩ :=
        List.mem_map.mp ((keys_ofArray key xs (key x)).mpr (List.mem_map_of_mem hx))
      rw [hkey, hkey] at hkeys
      have hname : name y = name x :=
        hinj (List.mem_map_of_mem (mem_of_mem_ofArray key hy)) hn hkeys
      rw [← hname]
      exact List.mem_map_of_mem hy

/-- Subtracting by key drops the removed names alone exactly when no other name hashes like
a removed one. -/
theorem names_subtracting_iff (hkey : ∀ x, key x = hash (name x)) {elements removed : List α}
    {names removedNames : List ν} (hnodup : (elements.map key).Nodup)
    (hnames : (elements.map name).Perm names) (hremoved : (removed.map name).Perm removedNames) :
    ((subtracting key elements removed).map name).Perm (subtracting id names removedNames) ↔
      ∀ n ∈ names, hash n ∈ removedNames.map hash → n ∈ removedNames := by
  have hright : (subtracting id names removedNames).Nodup :=
    (hnames.nodup_iff.mp (nodup_names hkey hnodup)).sublist List.filter_sublist
  rw [List.perm_ext_iff_of_nodup (nodup_names hkey (nodup_subtracting key removed hnodup)) hright]
  simp only [mem_names_subtracting hkey, mem_subtracting_id, hnames.mem_iff,
    (hremoved.map hash).mem_iff]
  constructor
  · intro hsame n hn hhash
    by_contra hkept
    have hleft := (hsame n).mpr ⟨hn, hkept⟩
    exact hleft.2 hhash
  · intro hapart n
    constructor
    · rintro ⟨hn, hkept⟩
      exact ⟨hn, fun hname => hkept (List.mem_map_of_mem hname)⟩
    · rintro ⟨hn, hkept⟩
      exact ⟨hn, fun hhash => hkept (hapart n hn hhash)⟩

end Names

/-- The order in which a set of `α` comes out as an array. -/
structure Enumeration (α : Type u) where
  toArray : List α → List α
  perm : ∀ elements, (toArray elements).Perm elements

theorem Enumeration.mem_toArray (order : Enumeration α) {x : α} {elements : List α} :
    x ∈ order.toArray elements ↔ x ∈ elements := (order.perm elements).mem_iff

/-- The enumeration that lists the elements as they were inserted. -/
def Enumeration.inserted (α : Type u) : Enumeration α := ⟨id, fun _ => .refl _⟩

end GetTogether.Realtime.KeyedSet
