import Mathlib.Data.Finset.Card
import SessionDirectory.SortedMap

/-!
# Lookup and size of sorted maps

What insertions make of a map, told by what is found in it and by the number of its keys. Of several
entries with one key the last one is found, so the map of a list has as many keys as the list has
entries exactly if no two of the entries share one.

## Main results

* `SortedMap.get?_insert_self`, `SortedMap.get?_insert_of_ne`: what is found after an insertion
* `SortedMap.get?_eq_some_iff`: what is found under the keys are the entries
* `SortedMap.get?_ofList_of_last`: in the map of a list, the last entry of a key is found
* `SortedMap.get?_ofList`: what is found in the map of a list
* `SortedMap.get?_ofList_eq_some_iff`: what is found if no two entries of the list share a key
* `SortedMap.get?_merge`: what is found in a union
* `SortedMap.size_ofList`: the map of a list has as many keys as the list has different ones
* `SortedMap.size_ofList_eq_iff`: when the map of a list has as many keys as the list has entries
* `SortedMap.ofList_entries`: the map of the entries of a map is the map
* `SortedMap.ofList_eq_of_perm`: the order of entries with distinct keys does not matter
* `SortedMap.keys_eq_of_mem_iff`: two maps with the same keys have them in the same order
* `SortedMap.exchange_eq`: what an insertion returns is what was found before
* `SortedMap.ext_get?`: two maps in which the same is found are the same map
* `SortedMap.ofList_append`: the map of two lists is the union of their maps
* `SortedMap.merge_assoc`, `SortedMap.merge_self`, `SortedMap.merge_empty`, `SortedMap.empty_merge`:
  the algebra of unions
-/

set_option autoImplicit false

namespace SessionDirectory

universe u v w

variable {κ : Type u} {α : Type v} [Ord κ]

/-! ## Lists of entries -/

section Entries

variable {key k : κ} {value v : α} {entries rest : List (κ × α)}

/-- An insertion adds at most one entry. -/
theorem length_insertEntry_le : (insertEntry key value entries).length ≤ entries.length + 1 := by
  induction entries with
  | nil => exact Nat.le_refl _
  | cons head rest ih =>
    obtain ⟨k, v⟩ := head
    unfold insertEntry
    split
    · exact Nat.le_refl _
    · exact Nat.le_succ _
    · exact Nat.succ_le_succ ih

/-- What is inserted under a key above all others comes last. -/
theorem insertEntry_of_forall_lt [Std.TransOrd κ]
    (above : ∀ e ∈ entries, compare e.1 key = .lt) :
    insertEntry key value entries = entries ++ [(key, value)] := by
  induction entries with
  | nil => rfl
  | cons head rest ih =>
    obtain ⟨k, v⟩ := head
    rw [List.forall_mem_cons] at above
    have gt : compare key k = .gt := Std.OrientedCmp.gt_of_lt above.1
    rw [insertEntry, gt, ih above.2, List.cons_append]

omit [Ord κ] in
/-- A key of a list has a last entry. -/
theorem exists_last_of_mem (mem : key ∈ entries.map (·.1)) : ∃ before value after,
    entries = before ++ (key, value) :: after ∧ key ∉ after.map (·.1) := by
  induction entries with
  | nil => simp at mem
  | cons head rest ih =>
    by_cases later : key ∈ rest.map (·.1)
    · obtain ⟨before, value, after, rfl, last⟩ := ih later
      exact ⟨head :: before, value, after, rfl, last⟩
    · obtain rfl : key = head.1 := by
        rw [List.map_cons, List.mem_cons] at mem
        exact mem.resolve_right later
      exact ⟨[], head.2, rest, rfl, later⟩

theorem findEntry?_nil : findEntry? key ([] : List (κ × α)) = none := rfl

theorem findEntry?_cons : findEntry? key ((k, v) :: rest) =
    match compare key k with
    | .eq => some v
    | _ => findEntry? key rest := rfl

variable [Std.LawfulEqOrd κ]

theorem findEntry?_cons_self : findEntry? k ((k, v) :: rest) = some v := by
  rw [findEntry?_cons, Std.ReflOrd.compare_self]

theorem findEntry?_cons_of_ne (ne : key ≠ k) :
    findEntry? key ((k, v) :: rest) = findEntry? key rest := by
  rw [findEntry?_cons]
  split
  next eq => exact absurd (Std.LawfulEqOrd.eq_of_compare eq) ne
  next => rfl

/-- An insertion under a new key adds an entry. -/
theorem length_insertEntry_of_not_mem (new : key ∉ entries.map (·.1)) :
    (insertEntry key value entries).length = entries.length + 1 := by
  induction entries with
  | nil => rfl
  | cons head rest ih =>
    obtain ⟨k, v⟩ := head
    rw [List.map_cons, List.mem_cons, not_or] at new
    unfold insertEntry
    split
    · rfl
    next eq => exact absurd (Std.LawfulEqOrd.eq_of_compare eq) new.1
    next => rw [List.length_cons, List.length_cons, ih new.2]

/-- What is inserted under a key is found there. -/
theorem findEntry?_insertEntry_self :
    findEntry? key (insertEntry key value entries) = some value := by
  induction entries with
  | nil => exact findEntry?_cons_self
  | cons head rest ih =>
    obtain ⟨k, v⟩ := head
    unfold insertEntry
    split
    · exact findEntry?_cons_self
    · exact findEntry?_cons_self
    next gt =>
      -- The insertion goes past the first key, so that one is smaller and not looked for.
      have ne : key ≠ k := by
        rintro rfl
        simp [Std.ReflOrd.compare_self] at gt
      rw [findEntry?_cons_of_ne ne, ih]

/-- An insertion leaves what is found under other keys. -/
theorem findEntry?_insertEntry_of_ne (ne : k ≠ key) :
    findEntry? k (insertEntry key value entries) = findEntry? k entries := by
  induction entries with
  | nil => exact findEntry?_cons_of_ne ne
  | cons head rest ih =>
    obtain ⟨k', v⟩ := head
    unfold insertEntry
    split
    · exact findEntry?_cons_of_ne ne
    next eq =>
      -- The first entry is replaced by one of the same key, which is not looked for.
      obtain rfl := Std.LawfulEqOrd.eq_of_compare eq
      rw [findEntry?_cons_of_ne ne, findEntry?_cons_of_ne ne]
    next =>
      by_cases same : k = k'
      · rw [same, findEntry?_cons_self, findEntry?_cons_self]
      · rw [findEntry?_cons_of_ne same, findEntry?_cons_of_ne same, ih]

/-- Increasing keys are distinct. -/
theorem KeysIncrease.nodup (increase : KeysIncrease entries) : (entries.map (·.1)).Nodup := by
  refine List.Pairwise.map _ (fun a b lt => ?_) increase
  intro same
  simp [same, Std.ReflOrd.compare_self] at lt

/-- Where the keys are distinct, what is found under a key is the entry of that key. -/
theorem findEntry?_eq_some_iff_of_nodup (distinct : (entries.map (·.1)).Nodup) :
    findEntry? key entries = some value ↔ (key, value) ∈ entries := by
  induction entries with
  | nil => simp [findEntry?_nil]
  | cons head rest ih =>
    obtain ⟨k, v⟩ := head
    rw [List.map_cons, List.nodup_cons] at distinct
    by_cases same : key = k
    · -- The key does not come again.
      have later : (key, value) ∉ rest := by
        intro mem
        exact distinct.1 (List.mem_map.mpr ⟨(key, value), mem, same⟩)
      subst same
      rw [findEntry?_cons_self, List.mem_cons]
      simp [later, eq_comm]
    · rw [findEntry?_cons_of_ne same, ih distinct.2]
      simp [same]

/-- Where the keys increase, what is found under a key is the entry of that key. -/
theorem findEntry?_eq_some_iff (increase : KeysIncrease entries) :
    findEntry? key entries = some value ↔ (key, value) ∈ entries :=
  findEntry?_eq_some_iff_of_nodup increase.nodup

/-- The order of entries with distinct keys does not matter to a lookup. -/
theorem findEntry?_eq_of_perm {entries' : List (κ × α)} (distinct : (entries.map (·.1)).Nodup)
    (perm : entries.Perm entries') : findEntry? key entries' = findEntry? key entries := by
  refine Option.ext fun value => ?_
  rw [findEntry?_eq_some_iff_of_nodup distinct,
    findEntry?_eq_some_iff_of_nodup ((perm.map _).nodup_iff.mp distinct), perm.mem_iff]

omit [Std.LawfulEqOrd κ] in
/-- Entries in strictly increasing order have one order only. -/
theorem KeysIncrease.eq_of_perm [Std.TransOrd κ] {entries' : List (κ × α)}
    (increase : KeysIncrease entries) (increase' : KeysIncrease entries')
    (perm : entries.Perm entries') : entries = entries' := by
  refine perm.eq_of_pairwise ?_ increase increase'
  intro a b _ _ lt gt
  exact absurd gt (Std.OrientedCmp.not_lt_of_lt lt)

/-- A lookup among changed values finds the changed value. -/
theorem findEntry?_map {β : Type w} (f : α → β) (key : κ) (entries : List (κ × α)) :
    findEntry? key (entries.map fun e => (e.1, f e.2)) = ( findEntry? key entries).map f := by
  induction entries with
  | nil => rfl
  | cons head rest ih =>
    obtain ⟨k, v⟩ := head
    rw [List.map_cons]
    by_cases same : key = k
    · rw [same, findEntry?_cons_self, findEntry?_cons_self, Option.map_some]
    · rw [findEntry?_cons_of_ne same, findEntry?_cons_of_ne same, ih]

/-- What an insertion changes is under its key: the other entries are those from before. -/
theorem filter_insertEntry [DecidableEq κ] (key : κ) (value : α) (entries : List (κ × α)) :
    (insertEntry key value entries).filter (fun e => e.1 ≠ key) =
      entries.filter fun e => e.1 ≠ key := by
  induction entries with
  | nil => simp [insertEntry]
  | cons head rest ih =>
    obtain ⟨k, v⟩ := head
    unfold insertEntry
    split
    · simp
    next eq =>
      obtain rfl := Std.LawfulEqOrd.eq_of_compare eq
      simp
    next => rw [List.filter_cons, List.filter_cons, ih]

/-- An insertion under a key that is there adds no entry. -/
theorem length_insertEntry_of_mem [Std.TransOrd κ] (increase : KeysIncrease entries)
    (mem : key ∈ entries.map (·.1)) :
    (insertEntry key value entries).length = entries.length := by
  induction entries with
  | nil => simp at mem
  | cons head rest ih =>
    obtain ⟨k, v⟩ := head
    obtain ⟨below, increase⟩ := List.pairwise_cons.mp increase
    rw [List.map_cons, List.mem_cons] at mem
    unfold insertEntry
    split
    next lt =>
      -- A key below the first one is below all of them.
      rcases mem with rfl | mem
      · simp [Std.ReflOrd.compare_self] at lt
      · obtain ⟨e, later, rfl⟩ := List.mem_map.mp mem
        have lt' := Std.TransCmp.lt_trans lt (below e later)
        simp [Std.ReflOrd.compare_self] at lt'
    next => rfl
    next gt =>
      rcases mem with rfl | mem
      · simp [Std.ReflOrd.compare_self] at gt
      · rw [List.length_cons, List.length_cons, ih increase mem]

/-- **What an insertion replaces is what was found under its key before.** -/
theorem exchangeEntry_fst [Std.TransOrd κ] (increase : KeysIncrease entries) :
    (exchangeEntry key value entries).1 = findEntry? key entries := by
  induction entries with
  | nil => rfl
  | cons head rest ih =>
    obtain ⟨k, v⟩ := head
    obtain ⟨below, increase⟩ := List.pairwise_cons.mp increase
    rw [exchangeEntry, findEntry?_cons]
    split
    next lt =>
      -- A key below the first one is below all of them, so it is not found.
      have absent : findEntry? key rest = none := by
        cases found : findEntry? key rest with
        | none => rfl
        | some value' =>
          have lt' := below _ ((findEntry?_eq_some_iff increase).mp found)
          have lt := Std.TransCmp.lt_trans lt lt'
          simp [Std.ReflOrd.compare_self] at lt
      rw [lt, absent]
    next eq => rw [eq]
    next gt => rw [gt, ← ih increase]

end Entries

/-! ## Maps -/

namespace SortedMap

variable {m : SortedMap κ α} {key k : κ} {value : α} {entries : List (κ × α)}

@[simp] theorem get?_empty (key : κ) : (empty : SortedMap κ α).get? key = none := rfl

variable [Std.LawfulEqOrd κ]

/-- What is found under the keys are the entries. -/
theorem get?_eq_some_iff : m.get? key = some value ↔ (key, value) ∈ m.entries :=
  findEntry?_eq_some_iff m.increasing

omit [Std.LawfulEqOrd κ] in
theorem keys_increasing (m : SortedMap κ α) : m.keys.Pairwise fun a b => compare a b = .lt :=
  List.Pairwise.map _ (fun _ _ lt => lt) m.increasing

theorem keys_nodup (m : SortedMap κ α) : m.keys.Nodup := m.increasing.nodup

theorem mem_keys_iff : key ∈ m.keys ↔ ∃ value, m.get? key = some value := by
  simp [keys, get?_eq_some_iff]

variable [Std.TransOrd κ]

/-- Two maps with the same keys have them in the same order. -/
theorem keys_eq_of_mem_iff {β : Type w} {n : SortedMap κ β}
    (same : ∀ key, key ∈ m.keys ↔ key ∈ n.keys) : m.keys = n.keys := by
  have perm := (List.perm_ext_iff_of_nodup m.keys_nodup n.keys_nodup).mpr same
  refine perm.eq_of_pairwise ?_ m.keys_increasing n.keys_increasing
  intro a b _ _ lt gt
  exact absurd gt (Std.OrientedCmp.not_lt_of_lt lt)

@[simp] theorem get?_insert_self : (m.insert key value).get? key = some value :=
  findEntry?_insertEntry_self

theorem get?_insert_of_ne (ne : k ≠ key) : (m.insert key value).get? k = m.get? k :=
  findEntry?_insertEntry_of_ne ne

theorem mem_keys_insert : k ∈ (m.insert key value).keys ↔ k = key ∨ k ∈ m.keys := by
  rw [mem_keys_iff, mem_keys_iff]
  by_cases same : k = key
  · simp [same]
  · rw [get?_insert_of_ne same]
    simp [same]

theorem size_insert_of_mem (mem : key ∈ m.keys) : (m.insert key value).size = m.size :=
  length_insertEntry_of_mem m.increasing mem

theorem size_insert_of_not_mem (new : key ∉ m.keys) : (m.insert key value).size = m.size + 1 :=
  length_insertEntry_of_not_mem new

omit [Std.LawfulEqOrd κ] [Std.TransOrd κ] in
theorem isEmpty_iff : m.isEmpty = true ↔ m = empty := by
  rw [isEmpty, List.isEmpty_iff]
  exact ⟨fun none => ext_entries none, fun same => same ▸ rfl⟩

/-- **Two maps in which the same is found under every key are the same map.** -/
theorem ext_get? {m n : SortedMap κ α} (same : ∀ key, m.get? key = n.get? key) : m = n := by
  have nodup : ∀ m : SortedMap κ α, m.entries.Nodup := fun m =>
    List.Pairwise.of_map _ (fun _ _ ne same => ne (congrArg _ same)) m.keys_nodup
  have mem : ∀ e, e ∈ m.entries ↔ e ∈ n.entries := by
    intro e
    rw [← get?_eq_some_iff, ← get?_eq_some_iff, same]
  have perm := (List.perm_ext_iff_of_nodup (nodup m) (nodup n)).mpr mem
  -- Lists in strictly increasing order that hold the same entries are the same.
  exact ext_entries (m.increasing.eq_of_perm n.increasing perm)

/-- **An exchange returns what was found under its key** and makes the insertion. -/
theorem exchange_eq (m : SortedMap κ α) (key : κ) (value : α) :
    m.exchange key value = (m.get? key, m.insert key value) :=
  Prod.ext (exchangeEntry_fst m.increasing)
    (ext_entries (exchangeEntry_snd key value m.entries))

/-! ## Maps of lists -/

theorem insertAll_cons (m : SortedMap κ α) (e : κ × α) (entries : List (κ × α)) :
    m.insertAll (e :: entries) = (m.insert e.1 e.2).insertAll entries := rfl

theorem insertAll_append (m : SortedMap κ α) (entries entries' : List (κ × α)) :
    m.insertAll (entries ++ entries') = (m.insertAll entries).insertAll entries' :=
  List.foldl_append

/-- Insertions under other keys leave what is found under a key. -/
theorem get?_insertAll_of_not_mem (new : key ∉ entries.map (·.1)) :
    (m.insertAll entries).get? key = m.get? key := by
  induction entries generalizing m with
  | nil => rfl
  | cons head rest ih =>
    rw [List.map_cons, List.mem_cons, not_or] at new
    rw [insertAll_cons, ih new.2, get?_insert_of_ne new.1]

/-- Of the insertions under a key the last one counts. -/
theorem get?_insertAll_of_last {before after : List (κ × α)} (last : key ∉ after.map (·.1)) :
    (m.insertAll (before ++ (key, value) :: after)).get? key = some value := by
  rw [insertAll_append, insertAll_cons, get?_insertAll_of_not_mem last, get?_insert_self]

/-- **In the map of a list, the last entry of a key is found.** -/
theorem get?_ofList_of_last {before after : List (κ × α)} (last : key ∉ after.map (·.1)) :
    (ofList (before ++ (key, value) :: after)).get? key = some value :=
  get?_insertAll_of_last last

theorem mem_keys_insertAll : key ∈ (m.insertAll entries).keys ↔
    key ∈ m.keys ∨ key ∈ entries.map (·.1) := by
  induction entries generalizing m with
  | nil => simp [insertAll]
  | cons head rest ih =>
    rw [insertAll_cons, ih, mem_keys_insert, List.map_cons, List.mem_cons]
    -- The first key of the list is new in the map by now.
    constructor
    · rintro ((rfl | mem) | mem)
      · exact .inr (.inl rfl)
      · exact .inl mem
      · exact .inr (.inr mem)
    · rintro (mem | rfl | mem)
      · exact .inl (.inr mem)
      · exact .inl (.inl rfl)
      · exact .inr mem

/-- The keys of the map of a list are the keys of the list. -/
theorem mem_keys_ofList : key ∈ (ofList entries).keys ↔ key ∈ entries.map (·.1) := by
  rw [ofList, mem_keys_insertAll]
  exact or_iff_right List.not_mem_nil

theorem size_insertAll_le (m : SortedMap κ α) (entries : List (κ × α)) :
    (m.insertAll entries).size ≤ m.size + entries.length := by
  induction entries generalizing m with
  | nil => exact Nat.le_refl _
  | cons head rest ih =>
    have step : (m.insert head.1 head.2).size ≤ m.size + 1 := length_insertEntry_le
    have le := ih (m.insert head.1 head.2)
    rw [insertAll_cons, List.length_cons]
    omega

/-- Insertions add an entry each if and only if their keys are new and distinct. -/
theorem size_insertAll_eq_iff : (m.insertAll entries).size = m.size + entries.length ↔
    (entries.map (·.1)).Nodup ∧ ∀ key ∈ entries.map (·.1), key ∉ m.keys := by
  induction entries generalizing m with
  | nil => simp [insertAll]
  | cons head rest ih =>
    rw [insertAll_cons, List.map_cons, List.length_cons, List.nodup_cons]
    by_cases mem : head.1 ∈ m.keys
    · -- The first insertion adds nothing, and the others cannot make up for it.
      have le := size_insertAll_le (m.insert head.1 head.2) rest
      rw [size_insert_of_mem mem] at le
      refine iff_of_false (by omega) fun h => ?_
      exact h.2 _ List.mem_cons_self mem
    · have add : m.size + (rest.length + 1) = (m.insert head.1 head.2).size + rest.length := by
        rw [size_insert_of_not_mem mem]
        omega
      rw [add, ih]
      simp only [mem_keys_insert, not_or, List.mem_cons]
      constructor
      · rintro ⟨nodup, new⟩
        refine ⟨⟨fun again => (new _ again).1 rfl, nodup⟩, ?_⟩
        rintro key (rfl | later)
        · exact mem
        · exact (new key later).2
      · rintro ⟨⟨fresh, nodup⟩, new⟩
        refine ⟨nodup, fun key later => ⟨?_, new key (.inr later)⟩⟩
        rintro rfl
        exact fresh later

/-- **The map of a list has as many keys as the list has entries** if and only if no two entries
have the same key. -/
theorem size_ofList_eq_iff :
    (ofList entries).size = entries.length ↔ (entries.map (·.1)).Nodup := by
  have iff : (insertAll empty entries).size = 0 + entries.length ↔ _ := size_insertAll_eq_iff
  rw [Nat.zero_add] at iff
  exact iff.trans (and_iff_left fun _ _ => List.not_mem_nil)

/-- What is in a map after insertions was there before or has been inserted. -/
theorem mem_insertAll {e : κ × α} (mem : e ∈ (m.insertAll entries).entries) :
    e ∈ m.entries ∨ e ∈ entries := by
  induction entries generalizing m with
  | nil => exact .inl mem
  | cons head rest ih =>
    rcases ih mem with before | later
    · rcases mem_insertEntry before with rfl | before
      · exact .inr List.mem_cons_self
      · exact .inl before
    · exact .inr (List.mem_cons_of_mem _ later)

/-- Insertions of increasing keys above those of the map put their entries last. -/
theorem entries_insertAll (increase : KeysIncrease (m.entries ++ entries)) :
    (m.insertAll entries).entries = m.entries ++ entries := by
  induction entries generalizing m with
  | nil => rw [List.append_nil]; rfl
  | cons head rest ih =>
    have above : ∀ e ∈ m.entries, compare e.1 head.1 = .lt := by
      intro e mem
      exact (List.pairwise_append.mp increase).2.2 e mem head List.mem_cons_self
    have insert : (m.insert head.1 head.2).entries = m.entries ++ [head] :=
      insertEntry_of_forall_lt above
    rw [List.append_cons, ← insert] at increase ⊢
    rw [insertAll_cons, ih increase]

theorem entries_ofList (increase : KeysIncrease entries) : (ofList entries).entries = entries :=
  entries_insertAll (m := empty) increase

/-- **The map of the entries of a map is the map.** -/
theorem ofList_entries (m : SortedMap κ α) : ofList m.entries = m :=
  ext_entries (entries_ofList m.increasing)

/-- **In the map of a list, the last entry of a key is found**, and nothing if no entry has it. -/
theorem get?_ofList [DecidableEq κ] (entries : List (κ × α)) (key : κ) :
    (ofList entries).get? key = (entries.reverse.find? fun e => e.1 = key).map (·.2) := by
  cases last : entries.reverse.find? fun e => e.1 = key with
  | none =>
    have new : key ∉ entries.map (·.1) := by
      intro mem
      obtain ⟨e, listed, rfl⟩ := List.mem_map.mp mem
      have other := List.find?_eq_none.mp last e (List.mem_reverse.mpr listed)
      simp at other
    rw [ofList, get?_insertAll_of_not_mem new]
    rfl
  | some e =>
    obtain ⟨found, after, before, split, other⟩ := List.find?_eq_some_iff_append.mp last
    obtain rfl : e.1 = key := by simpa using found
    have split : entries = before.reverse ++ e :: after.reverse := by
      rw [← List.reverse_reverse entries, split]
      simp
    have last : e.1 ∉ after.reverse.map (·.1) := by
      intro mem
      obtain ⟨e', listed, same⟩ := List.mem_map.mp mem
      have ne := other e' (List.mem_reverse.mp listed)
      simp [same] at ne
    rw [split, get?_ofList_of_last last, Option.map_some]

/-- **In the map of a list with distinct keys, the entries of the list are found.** -/
theorem get?_ofList_eq_some_iff (distinct : (entries.map (·.1)).Nodup) :
    (ofList entries).get? key = some value ↔ (key, value) ∈ entries := by
  constructor
  · intro found
    exact (mem_insertAll (get?_eq_some_iff.mp found)).resolve_left List.not_mem_nil
  · intro mem
    -- No other entry has the key, so this is the last one that has it.
    obtain ⟨before, after, rfl⟩ := List.append_of_mem mem
    rw [List.map_append, List.map_cons] at distinct
    exact get?_ofList_of_last (List.nodup_cons.mp (List.nodup_append.mp distinct).2.1).1

/-- **The order of entries with distinct keys does not matter.** -/
theorem ofList_eq_of_perm {entries' : List (κ × α)} (distinct : (entries.map (·.1)).Nodup)
    (perm : entries.Perm entries') : ofList entries = ofList entries' := by
  refine ext_get? fun key => Option.ext fun value => ?_
  rw [get?_ofList_eq_some_iff distinct,
    get?_ofList_eq_some_iff ((perm.map _).nodup_iff.mp distinct), perm.mem_iff]

/-- **The map of a list has as many keys as the list has different ones.** -/
theorem size_ofList [DecidableEq κ] (entries : List (κ × α)) :
    (ofList entries).size = (entries.map (·.1)).toFinset.card := by
  have keys : (ofList entries).keys.toFinset = (entries.map (·.1)).toFinset := by
    ext key
    rw [List.mem_toFinset, List.mem_toFinset, mem_keys_ofList]
  rw [← keys, List.toFinset_card_of_nodup (keys_nodup _), SortedMap.keys, List.length_map, size]

/-! ## Unions -/

/-- After insertions the inserted entries are found, and else what was found before. -/
theorem get?_insertAll (m : SortedMap κ α) (entries : List (κ × α)) (key : κ) :
    (m.insertAll entries).get? key = ((ofList entries).get? key).or (m.get? key) := by
  by_cases mem : key ∈ entries.map (·.1)
  · obtain ⟨before, value, after, rfl, last⟩ := exists_last_of_mem mem
    rw [get?_insertAll_of_last last, get?_ofList_of_last last, Option.some_or]
  · rw [ofList, get?_insertAll_of_not_mem mem, get?_insertAll_of_not_mem mem, get?_empty,
      Option.none_or]

/-- **In a union, what the second map has under a key is found**, and else what the first one
has. -/
theorem get?_merge (m overrides : SortedMap κ α) (key : κ) :
    (m.merge overrides).get? key = (overrides.get? key).or (m.get? key) := by
  rw [merge, get?_insertAll, ofList_entries]

/-- **The map of two lists is the union of their maps.** -/
theorem ofList_append (entries entries' : List (κ × α)) :
    ofList (entries ++ entries') = (ofList entries).merge (ofList entries') := by
  apply ext_get?
  intro key
  rw [get?_merge, ← get?_insertAll, ofList, insertAll_append, ofList]

/-- A union has what the first map has under keys that the second one does not have. -/
theorem get?_merge_of_none {overrides : SortedMap κ α} (absent : overrides.get? key = none) :
    (m.merge overrides).get? key = m.get? key := by
  rw [get?_merge, absent, Option.none_or]

theorem merge_assoc (m n o : SortedMap κ α) : (m.merge n).merge o = m.merge (n.merge o) := by
  apply ext_get?
  intro key
  rw [get?_merge, get?_merge, get?_merge, get?_merge, Option.or_assoc]

theorem merge_self (m : SortedMap κ α) : m.merge m = m := by
  apply ext_get?
  intro key
  rw [get?_merge, Option.or_self]

theorem merge_empty (m : SortedMap κ α) : m.merge empty = m := rfl

theorem empty_merge (m : SortedMap κ α) : empty.merge m = m := ofList_entries m

end SortedMap

end SessionDirectory
