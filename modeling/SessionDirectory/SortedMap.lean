/-!
# Sorted maps

A finite map held as the list of its entries in strictly increasing key order. The list form is
the map's iteration order, so whatever is written out entry by entry comes out sorted.

## Main definitions

* `SortedMap κ α`: the entries with the proof that their keys increase
* `SortedMap.insert`, `SortedMap.get?`: last-wins insertion and lookup
* `SortedMap.exchange`: the insertion that returns what it replaces
* `SortedMap.ofList`: the map of a list of entries, a later entry replacing an earlier one
* `SortedMap.merge`: the union in which the second map wins

## Main results

* `insertEntry_sorted`: insertion keeps the keys strictly increasing
* `exchangeEntry_snd`: the insertion that returns what it replaces is the insertion
-/

set_option autoImplicit false

namespace SessionDirectory

universe u v w

variable {κ : Type u} {α : Type v} [Ord κ]

/-- The keys of the entries increase strictly. -/
def KeysIncrease (entries : List (κ × α)) : Prop :=
  entries.Pairwise fun a b => compare a.1 b.1 = .lt

/-- Puts an entry at its place, replacing the entry of the same key. -/
def insertEntry (key : κ) (value : α) : List (κ × α) → List (κ × α)
  | [] => [(key, value)]
  | (k, v) :: rest =>
    match compare key k with
    | .lt => (key, value) :: (k, v) :: rest
    | .eq => (key, value) :: rest
    | .gt => (k, v) :: insertEntry key value rest

/-- Puts an entry at its place, and returns the value of the entry that it replaces. -/
def exchangeEntry (key : κ) (value : α) : List (κ × α) → Option α × List (κ × α)
  | [] => (none, [(key, value)])
  | (k, v) :: rest =>
    match compare key k with
    | .lt => (none, (key, value) :: (k, v) :: rest)
    | .eq => (some v, (key, value) :: rest)
    | .gt =>
      let (replaced, rest) := exchangeEntry key value rest
      (replaced, (k, v) :: rest)

/-- The value stored under a key. -/
def findEntry? (key : κ) : List (κ × α) → Option α
  | [] => none
  | (k, v) :: rest =>
    match compare key k with
    | .eq => some v
    | _ => findEntry? key rest

/-- Every key after an insertion is the new one or was there before. -/
theorem mem_insertEntry {key : κ} {value : α} {entries : List (κ × α)} {e : κ × α}
    (h : e ∈ insertEntry key value entries) : e = (key, value) ∨ e ∈ entries := by
  induction entries with
  | nil => simpa [insertEntry] using h
  | cons head rest ih =>
    obtain ⟨k, v⟩ := head
    unfold insertEntry at h
    split at h
    · simpa using h
    · rcases List.mem_cons.mp h with h | h
      · exact .inl h
      · exact .inr (List.mem_cons_of_mem _ h)
    · rcases List.mem_cons.mp h with h | h
      · exact .inr (h ▸ List.mem_cons_self)
      · exact (ih h).imp_right (List.mem_cons_of_mem _)

/-- Insertion keeps the keys strictly increasing. -/
theorem insertEntry_sorted [Std.TransOrd κ] [Std.LawfulEqOrd κ] (key : κ) (value : α)
    {entries : List (κ × α)} (h : KeysIncrease entries) :
    KeysIncrease (insertEntry key value entries) := by
  induction entries with
  | nil => simp [insertEntry, KeysIncrease]
  | cons head rest ih =>
    obtain ⟨k, v⟩ := head
    obtain ⟨below, rest_sorted⟩ := List.pairwise_cons.mp h
    unfold insertEntry
    split
    next lt =>
      refine List.pairwise_cons.mpr ⟨fun e he => ?_, h⟩
      rcases List.mem_cons.mp he with rfl | he
      · exact lt
      · exact Std.TransCmp.lt_trans lt (below e he)
    next eq =>
      have := Std.LawfulEqOrd.eq_of_compare eq
      subst this
      exact List.pairwise_cons.mpr ⟨below, rest_sorted⟩
    next gt =>
      refine List.pairwise_cons.mpr ⟨fun e he => ?_, ih rest_sorted⟩
      rcases mem_insertEntry he with rfl | he
      · exact Std.OrientedCmp.lt_of_gt gt
      · exact below e he

/-- The insertion that returns what it replaces leaves the entries that the insertion leaves. -/
theorem exchangeEntry_snd (key : κ) (value : α) (entries : List (κ × α)) :
    (exchangeEntry key value entries).2 = insertEntry key value entries := by
  induction entries with
  | nil => rfl
  | cons head rest ih =>
    obtain ⟨k, v⟩ := head
    unfold exchangeEntry insertEntry
    split
    · rfl
    · rfl
    · rw [← ih]

/-- A finite map: its entries in strictly increasing key order. -/
structure SortedMap (κ : Type u) (α : Type v) [Ord κ] where
  entries : List (κ × α)
  increasing : KeysIncrease entries

namespace SortedMap

/-- The map without entries. -/
def empty : SortedMap κ α := ⟨[], .nil⟩

instance : Inhabited (SortedMap κ α) := ⟨empty⟩

/-- Two maps with the same entries are the same map. -/
theorem ext_entries {m n : SortedMap κ α} (h : m.entries = n.entries) : m = n := by
  cases m; cases n; cases h; rfl

instance [DecidableEq κ] [DecidableEq α] : DecidableEq (SortedMap κ α) := fun m n =>
  if h : m.entries = n.entries then isTrue (ext_entries h) else isFalse fun e => h (e ▸ rfl)

/-- The number of keys. -/
def size (m : SortedMap κ α) : Nat := m.entries.length

/-- Whether no key has a value. -/
def isEmpty (m : SortedMap κ α) : Bool := m.entries.isEmpty

/-- The keys, in increasing order. -/
def keys (m : SortedMap κ α) : List κ := m.entries.map (·.1)

/-- The value stored under a key. -/
def get? (m : SortedMap κ α) (key : κ) : Option α := findEntry? key m.entries

variable [Std.TransOrd κ] [Std.LawfulEqOrd κ]

/-- Stores a value under a key, replacing the one stored before. -/
def insert (m : SortedMap κ α) (key : κ) (value : α) : SortedMap κ α :=
  ⟨insertEntry key value m.entries, insertEntry_sorted key value m.increasing⟩

/-- Stores a value under a key, and returns the one stored before. -/
def exchange (m : SortedMap κ α) (key : κ) (value : α) : Option α × SortedMap κ α :=
  let done := exchangeEntry key value m.entries
  (done.1,
    ⟨done.2, exchangeEntry_snd key value m.entries ▸ insertEntry_sorted key value m.increasing⟩)

/-- Inserts the entries one after the other. -/
def insertAll (m : SortedMap κ α) (entries : List (κ × α)) : SortedMap κ α :=
  entries.foldl (fun m e => m.insert e.1 e.2) m

/-- The map of a list of entries: of several entries with one key the last one counts. -/
def ofList (entries : List (κ × α)) : SortedMap κ α := empty.insertAll entries

/-- The union of two maps: where both have a key, the second one's value counts. -/
def merge (m overrides : SortedMap κ α) : SortedMap κ α := m.insertAll overrides.entries

end SortedMap

end SessionDirectory
