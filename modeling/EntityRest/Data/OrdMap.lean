import EntityRest.Data.Lookup

/-!
Ordered maps: a map whose entries stand in the order in which their keys were first added.

Every operation keeps the keys pairwise different, so that fact is part of the type. The view of a
map is its entry list `toList`; `get?` looks a key up in it.
-/

namespace EntityRest

/-- A map that remembers the order in which its keys were added. -/
structure OrdMap (κ ν : Type) where
  toList : List (κ × ν)
  nodup_keys : (toList.map Prod.fst).Nodup

namespace OrdMap

variable {κ ν μ : Type}

theorem ext {m n : OrdMap κ ν} (h : m.toList = n.toList) : m = n := by
  cases m; cases n; cases h; rfl

def empty : OrdMap κ ν := ⟨[], List.nodup_nil⟩

instance : EmptyCollection (OrdMap κ ν) := ⟨empty⟩

instance : Inhabited (OrdMap κ ν) := ⟨empty⟩

def keys (m : OrdMap κ ν) : List κ := m.toList.map Prod.fst

def values (m : OrdMap κ ν) : List ν := m.toList.map Prod.snd

def size (m : OrdMap κ ν) : Nat := m.toList.length

def isEmpty (m : OrdMap κ ν) : Bool := m.toList.isEmpty

theorem nodup_map_values (f : κ × ν → μ) (m : OrdMap κ ν) :
    ((m.toList.map fun e => (e.1, f e)).map Prod.fst).Nodup := by
  simpa [List.map_map, Function.comp_def] using m.nodup_keys

/-- Replaces every value, seen with its key; keys and order stay. -/
def mapEntries (f : κ → ν → μ) (m : OrdMap κ ν) : OrdMap κ μ :=
  ⟨m.toList.map fun e => (e.1, f e.1 e.2), m.nodup_map_values fun e => f e.1 e.2⟩

/-- The entries that pass the test, in their order. -/
def filter (p : κ → ν → Bool) (m : OrdMap κ ν) : OrdMap κ ν :=
  ⟨m.toList.filter fun e => p e.1 e.2,
    m.nodup_keys.sublist (List.filter_sublist.map Prod.fst)⟩

variable [DecidableEq κ]

def get? (m : OrdMap κ ν) (k : κ) : Option ν := m.toList.lookup k

def contains (m : OrdMap κ ν) (k : κ) : Bool := (m.get? k).isSome

theorem get?_eq_none_iff {m : OrdMap κ ν} {k : κ} : m.get? k = none ↔ k ∉ m.keys :=
  Lookup.lookup_eq_none_iff

theorem contains_iff_mem_keys {m : OrdMap κ ν} {k : κ} : m.contains k = true ↔ k ∈ m.keys := by
  rw [contains, Option.isSome_iff_ne_none, ne_eq, get?_eq_none_iff, Classical.not_not]

/-- Replaces the value of a key in place; a key that is absent changes nothing. -/
def replace (m : OrdMap κ ν) (k : κ) (v : ν) : OrdMap κ ν :=
  m.mapEntries fun k' v' => if k' = k then v else v'

/-- Sets the value of a key: in place if the key is there, else as the last entry. -/
def insert (m : OrdMap κ ν) (k : κ) (v : ν) : OrdMap κ ν :=
  if h : k ∈ m.keys then m.replace k v
  else ⟨m.toList ++ [(k, v)], by
    rw [List.map_append, List.nodup_append]
    refine ⟨m.nodup_keys, by simp, ?_⟩
    rintro a ha b hb rfl
    simp only [List.map_cons, List.map_nil, List.mem_singleton] at hb
    exact h (hb ▸ ha)⟩

/-- Drops a key; the others keep their order. -/
def erase (m : OrdMap κ ν) (k : κ) : OrdMap κ ν := m.filter fun k' _ => k' ≠ k

/-- Changes the value of a key, if it is there. -/
def modify (m : OrdMap κ ν) (k : κ) (f : ν → ν) : OrdMap κ ν :=
  m.mapEntries fun k' v => if k' = k then f v else v

/-- The value of a key, or else a default. -/
def getD (m : OrdMap κ ν) (k : κ) (d : ν) : ν := (m.get? k).getD d

/-- Changes the value of a key, which is added with the changed default if it is not there. -/
def upsert (m : OrdMap κ ν) (k : κ) (d : ν) (f : ν → ν) : OrdMap κ ν := m.insert k (f (m.getD k d))

/-- Inserts the entries of a list one after the other. -/
def insertMany (m : OrdMap κ ν) (l : List (κ × ν)) : OrdMap κ ν :=
  l.foldl (fun m e => m.insert e.1 e.2) m

def ofList (l : List (κ × ν)) : OrdMap κ ν := insertMany ∅ l

/-- Lets the entries of the second map win over those of the first. -/
def union (m n : OrdMap κ ν) : OrdMap κ ν := m.insertMany n.toList

theorem not_mem_keys_erase (m : OrdMap κ ν) (k : κ) : k ∉ (m.erase k).keys := by
  simp [erase, filter, keys]

/-- Puts a new key before the entry at an index, or last if there are not that many entries. -/
def insertAt (m : OrdMap κ ν) (i : Nat) (k : κ) (v : ν) (h : k ∉ m.keys) : OrdMap κ ν :=
  ⟨m.toList.take i ++ (k, v) :: m.toList.drop i, by
    rw [(List.perm_middle.map Prod.fst).nodup_iff, List.take_append_drop, List.map_cons,
      List.nodup_cons]
    exact ⟨h, m.nodup_keys⟩⟩

/-- The index at which a key stands, or the number of entries if it is absent. -/
def indexOf (m : OrdMap κ ν) (k : κ) : Nat := m.keys.idxOf k

/--
Moves the value of `k` to the key `k'`, and says whether `k` was there: both keys are dropped, then
the new entry is put at the index where `k` stood. A map without `k` stays as it is.
-/
def tryRename (m : OrdMap κ ν) (k k' : κ) : Bool × OrdMap κ ν :=
  match m.get? k with
  | none => (false, m)
  | some v =>
    (true, ((m.erase k).erase k').insertAt (m.indexOf k) k' v ((m.erase k).not_mem_keys_erase k'))

/-- The map after a key was renamed, whether it was there or not. -/
def rename (m : OrdMap κ ν) (k k' : κ) : OrdMap κ ν := (m.tryRename k k').2

theorem tryRename_of_get?_eq_none {m : OrdMap κ ν} {k : κ} (h : m.get? k = none) (k' : κ) :
    m.tryRename k k' = (false, m) := by
  rw [tryRename, h]

theorem rename_of_get?_eq_none {m : OrdMap κ ν} {k : κ} (h : m.get? k = none) (k' : κ) :
    m.rename k k' = m := by
  rw [rename, tryRename_of_get?_eq_none h]

end OrdMap

end EntityRest
