import Mathlib.Data.List.Nodup
import Mathlib.Data.List.Perm.Basic

/-!
# Insertion-ordered maps

The entries of a JavaScript `Map`, in the order in which their keys were first
set.  No two entries have one key.
-/

/-- A map with its entries in insertion order. -/
structure JsMap (κ ν : Type*) where
  entries : List (κ × ν)
  keysNodup : (entries.map Prod.fst).Nodup

namespace JsMap

variable {κ ν : Type*}

def empty : JsMap κ ν where
  entries := []
  keysNodup := List.nodup_nil

def keys (map : JsMap κ ν) : List κ :=
  map.entries.map Prod.fst

variable [DecidableEq κ]

/-- `map.get(key)`. -/
def get?
    (map : JsMap κ ν)
    (key : κ) : Option ν :=
  (map.entries.find? fun entry => entry.1 = key).map Prod.snd

/-- Replace the value of a key where it stands. -/
def replace
    (key : κ)
    (value : ν)
    (entry : κ × ν) : κ × ν :=
  if entry.1 = key then (key, value) else entry

theorem fst_replace
    (key : κ)
    (value : ν)
    (entry : κ × ν) :
    (replace key value entry).1 = entry.1 := by
  unfold replace
  split
  · rename_i same
    exact same.symm
  · rfl

theorem map_fst_replace
    (key : κ)
    (value : ν)
    (entries : List (κ × ν)) :
    (entries.map (replace key value)).map Prod.fst =
      entries.map Prod.fst := by
  rw [List.map_map]
  apply List.map_congr_left
  intro entry member
  exact fst_replace key value entry

/-- `map.set(key, value)`: a new key goes to the end. -/
def set
    (map : JsMap κ ν)
    (key : κ)
    (value : ν) : JsMap κ ν :=
  if present : key ∈ map.entries.map Prod.fst then {
    entries := map.entries.map (replace key value)
    keysNodup := by
      rw [map_fst_replace]
      exact map.keysNodup }
  else {
    entries := map.entries ++ [(key, value)]
    keysNodup := by
      simp only [List.map_append, List.map_cons, List.map_nil]
      exact List.nodup_append.mpr ⟨map.keysNodup,
        List.nodup_singleton key, by
          intro first member second isKey same
          rw [List.mem_singleton.mp isKey] at same
          exact present (same ▸ member)⟩ }

/-- A value is got exactly where its entry stands. -/
theorem get?_eq_some_iff
    {map : JsMap κ ν}
    {key : κ}
    {value : ν} :
    map.get? key = some value ↔ (key, value) ∈ map.entries := by
  have unique : ∀ {first second : κ × ν}, first ∈ map.entries →
      second ∈ map.entries → first.1 = second.1 → first = second :=
    fun inFirst inSecond same =>
      List.inj_on_of_nodup_map map.keysNodup inFirst inSecond same
  unfold get?
  constructor
  · intro found
    obtain ⟨entry, isEntry, rfl⟩ := Option.map_eq_some_iff.mp found
    have isKey : entry.1 = key := by
      simpa using List.find?_some isEntry
    rw [← isKey]
    exact List.mem_of_find?_eq_some isEntry
  · intro member
    cases isEntry : map.entries.find? fun entry => entry.1 = key with
    | none =>
        have differs := List.find?_eq_none.mp isEntry _ member
        simp at differs
    | some entry =>
        have isKey : entry.1 = key := by
          simpa using List.find?_some isEntry
        have same := unique (List.mem_of_find?_eq_some isEntry) member
          isKey
        rw [Option.map_some, same]

/-- Setting a key leaves the entries of the other keys. -/
theorem mem_entries_set
    {map : JsMap κ ν}
    {key : κ}
    {value : ν}
    {entry : κ × ν} :
    entry ∈ (map.set key value).entries ↔
      entry = (key, value) ∨ entry ∈ map.entries ∧ entry.1 ≠ key := by
  unfold set
  split
  · rename_i present
    constructor
    · intro member
      obtain ⟨old, inMap, rfl⟩ := List.mem_map.mp member
      by_cases same : old.1 = key
      · exact .inl (if_pos same)
      · rw [replace, if_neg same]
        exact .inr ⟨inMap, same⟩
    · rintro (rfl | ⟨inMap, differs⟩)
      · obtain ⟨old, inMap, rfl⟩ := List.mem_map.mp present
        exact List.mem_map.mpr ⟨old, inMap, if_pos rfl⟩
      · exact List.mem_map.mpr ⟨entry, inMap, if_neg differs⟩
  · rename_i absent
    simp only [List.mem_append, List.mem_singleton]
    constructor
    · rintro (inMap | rfl)
      · refine .inr ⟨inMap, ?_⟩
        rintro rfl
        exact absent (List.mem_map.mpr ⟨entry, inMap, rfl⟩)
      · exact .inl rfl
    · rintro (rfl | ⟨inMap, differs⟩)
      · exact .inr rfl
      · exact .inl inMap

theorem get?_set
    (map : JsMap κ ν)
    (key other : κ)
    (value : ν) :
    (map.set key value).get? other =
      if other = key then some value else map.get? other := by
  apply Option.ext
  intro found
  rw [get?_eq_some_iff, mem_entries_set]
  split
  · rename_i same
    subst same
    simp [eq_comm]
  · rename_i differs
    simp [differs, get?_eq_some_iff]

/-- The entries a `map.delete` in a loop over them leaves. -/
def filter
    (map : JsMap κ ν)
    (keep : κ × ν → Bool) : JsMap κ ν where
  entries := map.entries.filter keep
  keysNodup :=
    map.keysNodup.sublist (List.Sublist.map Prod.fst List.filter_sublist)

theorem get?_filter
    (map : JsMap κ ν)
    (keep : κ × ν → Bool)
    (key : κ) :
    (map.filter keep).get? key =
      (map.get? key).filter fun value => keep (key, value) := by
  apply Option.ext
  intro found
  rw [get?_eq_some_iff, Option.filter_eq_some_iff, get?_eq_some_iff]
  exact List.mem_filter

/-- A new key goes to the end. -/
theorem entries_set_of_absent
    {map : JsMap κ ν}
    {key : κ}
    (value : ν)
    (absent : key ∉ map.keys) :
    (map.set key value).entries = map.entries ++ [(key, value)] :=
  congrArg entries (dif_neg absent)

/-- A loop that sets new keys appends their entries. -/
theorem entries_foldl_set
    {α : Type*}
    (keyOf : α → κ)
    (valueOf : α → ν)
    {items : List α}
    {map : JsMap κ ν}
    (distinct : (map.keys ++ items.map keyOf).Nodup) :
    (items.foldl (fun map item => map.set (keyOf item) (valueOf item))
        map).entries =
      map.entries ++ items.map fun item => (keyOf item, valueOf item) := by
  induction items generalizing map with
  | nil => simp
  | cons item items ih =>
      have absent : keyOf item ∉ map.keys := by
        intro present
        exact (List.nodup_append.mp distinct).2.2 _ present _
          (List.mem_cons_self ..) rfl
      have entries := entries_set_of_absent (valueOf item) absent
      have keys : (map.set (keyOf item) (valueOf item)).keys =
          map.keys ++ [keyOf item] := by
        simp [JsMap.keys, entries]
      rw [List.foldl_cons, ih (by simpa [keys] using distinct), entries]
      simp

/-- After a loop that sets a value for each item, a key has the value of its last
item, or what it had before. -/
theorem get?_foldl_set
    {α : Type*}
    (keyOf : α → κ)
    (valueOf : α → ν)
    (items : List α)
    (map : JsMap κ ν)
    (key : κ) :
    (items.foldl (fun map item => map.set (keyOf item) (valueOf item))
        map).get? key =
      ((items.reverse.find? fun item => keyOf item = key).map
        valueOf).or (map.get? key) := by
  induction items generalizing map with
  | nil => rfl
  | cons item items inductionHypothesis =>
      rw [List.foldl_cons, inductionHypothesis, get?_set,
        List.reverse_cons, List.find?_append, Option.map_or, Option.or_assoc]
      congr 1
      by_cases same : keyOf item = key
      · simp [same]
      · simp [same, Ne.symm same]

/-- A key that is set has a value. -/
theorem isSome_get?_iff
    {map : JsMap κ ν}
    {key : κ} :
    (map.get? key).isSome ↔ ∃ value, (key, value) ∈ map.entries := by
  rw [Option.isSome_iff_exists]
  apply exists_congr
  intro value
  exact get?_eq_some_iff

/-- Setting a key keeps the keys that are set. -/
theorem isSome_get?_set
    {map : JsMap κ ν}
    {key other : κ}
    {value : ν}
    (held : other = key ∨ (map.get? other).isSome) :
    ((map.set key value).get? other).isSome := by
  rw [isSome_get?_iff]
  by_cases same : other = key
  · rw [same]
    exact ⟨value, mem_entries_set.mpr (.inl rfl)⟩
  · obtain ⟨old, member⟩ :=
      isSome_get?_iff.mp (held.resolve_left same)
    exact ⟨old, mem_entries_set.mpr (.inr ⟨member, same⟩)⟩

end JsMap
