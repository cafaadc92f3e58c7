import SessionDirectory.Json.Value
import SessionDirectory.Proofs.SortedMap

/-!
# Members of objects

The members of an object are a list, and the list of a sorted map is in order. To sort the members
of such an object leaves their order, and sorts the objects inside their values only.

## Main definitions

* `Value.member?`, `Value.memberCount`: the value of a member, and the number of members
* `Value.without`: the value without the members of a name
* `Value.Ordered`: the members of every object, at any depth, are in strictly increasing order

## Main results

* `Value.sortKeys_ofEntries`: what sorting makes of the object of a sorted map
* `Value.without_sortKeys_insert`: what is put under a name is all that goes with the name
* `Value.Ordered.sortKeys_eq_self`: to sort what is in order changes nothing
-/

set_option autoImplicit false

namespace SessionDirectory.Json

namespace Value

/-- The value of the member of a name, if the value is an object that has one. -/
def member? (name : String) : Value → Option Value
  | .object members => findEntry? name members
  | _ => none

/-- The number of members, none for what is no object. -/
def memberCount : Value → Nat
  | .object members => members.length
  | _ => 0

/-- The value without the members of a name. -/
def without (name : String) : Value → Value
  | .object members => .object (members.filter fun m => m.1 ≠ name)
  | v => v

/-- The members of every object, at any depth, are in strictly increasing order of their names. -/
inductive Ordered : Value → Prop where
  | null : Ordered .null
  | bool (b : Bool) : Ordered (.bool b)
  | number (n : Number) : Ordered (.number n)
  | string (s : String) : Ordered (.string s)
  | array {items : List Value} (each : ∀ v ∈ items, Ordered v) : Ordered (.array items)
  | object {members : List (String × Value)} (increase : KeysIncrease members)
      (each : ∀ m ∈ members, Ordered m.2) : Ordered (.object members)

/-! ## Sorting -/

theorem sortKeysItems_eq_map (items : List Value) : sortKeysItems items = items.map sortKeys := by
  induction items with
  | nil => rfl
  | cons v rest ih => rw [sortKeysItems, ih, List.map_cons]

theorem sortKeysMembers_eq_map (members : List (String × Value)) :
    sortKeysMembers members = members.map fun m => (m.1, m.2.sortKeys) := by
  induction members with
  | nil => rfl
  | cons m rest ih => rw [sortKeysMembers, ih, List.map_cons]

theorem sortKeys_array (items : List Value) :
    (Value.array items).sortKeys = .array (items.map sortKeys) := by
  rw [sortKeys, sortKeysItems_eq_map]

theorem sortKeys_object (members : List (String × Value)) :
    (Value.object members).sortKeys =
      .object (sortMembers (members.map fun m => (m.1, m.2.sortKeys))) := by
  rw [sortKeys, sortKeysMembers_eq_map]

theorem sortMembers_perm (members : List (String × Value)) : (sortMembers members).Perm members :=
  List.mergeSort_perm members _

theorem map_fst_sortKeys (members : List (String × Value)) :
    (members.map fun m => (m.1, m.2.sortKeys)).map (·.1) = members.map (·.1) := by
  rw [List.map_map]
  rfl

/-- Sorting leaves the names. -/
theorem names_sortMembers_perm (members : List (String × Value)) :
    ((sortMembers (members.map fun m => (m.1, m.2.sortKeys))).map (·.1)).Perm
      (members.map (·.1)) := by
  rw [← map_fst_sortKeys members]
  exact (sortMembers_perm _).map _

/-- Members in increasing order are sorted already. -/
theorem sortMembers_of_increasing {members : List (String × Value)}
    (increase : KeysIncrease members) : sortMembers members = members := by
  refine List.mergeSort_of_pairwise (increase.imp fun {a b} before => ?_)
  have lt : a.1 < b.1 := compareOfLessAndEq_eq_lt.mp before
  exact decide_eq_true (Std.le_of_lt lt)

/-- Changed values leave members in order. -/
theorem increasing_map {α β : Type} {members : List (String × α)} (f : α → β)
    (increase : KeysIncrease members) : KeysIncrease (members.map fun m => (m.1, f m.2)) :=
  List.Pairwise.map _ (fun _ _ lt => lt) increase

/-- **Sorting the object of a sorted map** leaves its members where they are and sorts their
values. -/
theorem sortKeys_ofEntries (m : SortedMap String Value) :
    (Value.object m.entries).sortKeys = .object (m.entries.map fun e => (e.1, e.2.sortKeys)) := by
  rw [sortKeys_object, sortMembers_of_increasing (increasing_map _ m.increasing)]

/-- A member of the sorted object is the sorted member. -/
theorem member?_sortKeys_ofEntries (m : SortedMap String Value) (name : String) :
    (Value.object m.entries).sortKeys.member? name = (m.get? name).map sortKeys := by
  rw [sortKeys_ofEntries, member?, findEntry?_map, SortedMap.get?]

theorem without_sortKeys_ofEntries (m : SortedMap String Value) (name : String) :
    (Value.object m.entries).sortKeys.without name =
      .object ((m.entries.filter fun e => e.1 ≠ name).map fun e => (e.1, e.2.sortKeys)) := by
  rw [sortKeys_ofEntries, without, List.filter_map]
  rfl

/-- **What is put under a name is all that goes with the name.** -/
theorem without_sortKeys_insert (m : SortedMap String Value) (name : String) (v : Value) :
    (Value.object (m.insert name v).entries).sortKeys.without name =
      (Value.object m.entries).sortKeys.without name := by
  rw [without_sortKeys_ofEntries, without_sortKeys_ofEntries]
  show Value.object (((insertEntry name v m.entries).filter _).map _) = _
  rw [filter_insertEntry]

/-- What has no member of a name stays as it is without the name. -/
theorem without_sortKeys_eq_self {m : SortedMap String Value} {name : String}
    (absent : m.get? name = none) :
    (Value.object m.entries).sortKeys.without name = (Value.object m.entries).sortKeys := by
  have other : ∀ e ∈ m.entries, e.1 ≠ name := by
    rintro e mem rfl
    have found := SortedMap.get?_eq_some_iff.mpr mem
    rw [absent] at found
    cases found
  have all : (m.entries.filter fun e => e.1 ≠ name) = m.entries := by
    rw [List.filter_eq_self]
    exact fun e mem => decide_eq_true (other e mem)
  rw [without_sortKeys_ofEntries, all, sortKeys_ofEntries]

/-- Members that have nothing to sort inside stay as they are. -/
theorem map_sortKeys_eq_self {members : List (String × Value)}
    (each : ∀ m ∈ members, m.2.sortKeys = m.2) :
    (members.map fun m => (m.1, m.2.sortKeys)) = members := by
  have same : ∀ m ∈ members, (m.1, m.2.sortKeys) = m := by
    intro m mem
    rw [each m mem]
  rw [List.map_congr_left same, List.map_id']

/-- **To sort what is in order changes nothing.** -/
theorem Ordered.sortKeys_eq_self {v : Value} (ordered : v.Ordered) : v.sortKeys = v := by
  induction ordered with
  | null | bool | number | string => rfl
  | @array items each ih =>
    -- Each item stays as it is, and so does the list of them.
    have same : items.map sortKeys = items := by
      rw [List.map_congr_left ih, List.map_id']
    rw [sortKeys_array, same]
  | @object members increase each ih =>
    rw [sortKeys_object, map_sortKeys_eq_self ih, sortMembers_of_increasing increase]

end Value

end SessionDirectory.Json
