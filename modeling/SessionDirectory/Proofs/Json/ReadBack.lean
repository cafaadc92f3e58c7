import SessionDirectory.Proofs.Json.Field

/-!
# Records read back from their texts

A record is written as an object whose members have distinct names. The reader finds each member by
its name, in whatever order the members come, so the members may be sorted before they are written.
A text that brings back its record belongs to no other record.

## Main definitions

* `ReadBack`: the texts of records bring the records back

## Main results

* `Raw.record_eq_of_perm`: the order of distinct members does not matter to a record
* `Raw.record_tree`: what is found in the tree of a written record
* `Raw.record_tree_sortKeys`: the members of a record may be sorted
* `ReadBack.of_tree`: what is read back from its tree is read back from its text
-/

set_option autoImplicit false

namespace SessionDirectory

namespace Json

namespace Value

variable {members : List (String × Value)} {name : String}

/-! ## Parts of written records -/

@[simp] theorem floatFree_bool (b : Bool) : (Value.bool b).FloatFree := .bool b

@[simp] theorem floatFree_integer (n : Integer) : (Value.number (.integer n)).FloatFree := .integer n

@[simp] theorem floatFree_string (s : String) : (Value.string s).FloatFree := .string s

@[simp] theorem floatFree_ofStrings (ss : List String) : (Value.ofStrings ss).FloatFree :=
  .array (List.forall_mem_map.mpr fun s _ => .string s)

@[simp] theorem ordered_bool (b : Bool) : (Value.bool b).Ordered := .bool b

@[simp] theorem ordered_number (n : Number) : (Value.number n).Ordered := .number n

@[simp] theorem ordered_string (s : String) : (Value.string s).Ordered := .string s

@[simp] theorem ordered_ofStrings (ss : List String) : (Value.ofStrings ss).Ordered :=
  .array (List.forall_mem_map.mpr fun s _ => .string s)

/-- Sorting the members leaves a value without doubles. -/
theorem FloatFree.sortKeys {v : Value} (free : v.FloatFree) : v.sortKeys.FloatFree := by
  induction free with
  | null => exact .null
  | bool b => exact .bool b
  | integer n => exact .integer n
  | string s => exact .string s
  | @array items each ih =>
    rw [sortKeys_array]
    exact .array (List.forall_mem_map.mpr ih)
  | @object members each ih =>
    rw [sortKeys_object]
    refine .object fun m mem => ?_
    obtain ⟨m', listed, rfl⟩ := List.mem_map.mp ((sortMembers_perm _).mem_iff.mp mem)
    exact ih m' listed

/-- A member is missing if no member has its name. -/
theorem member?_eq_none_iff :
    (Value.object members).member? name = none ↔ name ∉ members.map (·.1) := by
  rw [member?]
  induction members with
  | nil => simp [findEntry?_nil]
  | cons m rest ih =>
    obtain ⟨n, v⟩ := m
    by_cases same : name = n
    · simp [same, findEntry?_cons_self]
    · rw [findEntry?_cons_of_ne same, ih]
      simp [same]

/-- Sorting the members makes none of them missing. -/
theorem member?_sortKeys_eq_none_iff :
    (Value.object members).sortKeys.member? name = none ↔
      (Value.object members).member? name = none := by
  rw [sortKeys_object, member?_eq_none_iff, member?_eq_none_iff,
    (names_sortMembers_perm members).mem_iff]

/-! ## Trees -/

theorem treeItems_eq_map (items : List Value) : treeItems items = items.map tree := by
  induction items with
  | nil => rfl
  | cons v rest ih => rw [treeItems, ih, List.map_cons]

theorem treeMembers_eq_map (members : List (String × Value)) :
    treeMembers members = members.map fun m => (some m.1, m.2.tree) := by
  induction members with
  | nil => rfl
  | cons m rest ih => rw [treeMembers, ih, List.map_cons]

theorem tree_ofStrings (ss : List String) :
    (ofStrings ss).tree = .array (ss.map fun s => .string (some s)) := by
  rw [ofStrings, tree, treeItems_eq_map, List.map_map]
  rfl

theorem nodup_treeMembers (distinct : (members.map (·.1)).Nodup) :
    ((treeMembers members).map (·.1)).Nodup := by
  have names : (treeMembers members).map (·.1) = (members.map (·.1)).map some := by
    rw [treeMembers_eq_map, List.map_map, List.map_map]
    rfl
  rw [names]
  exact List.Pairwise.map some (fun _ _ ne same => ne (Option.some.inj same)) distinct

end Value

/-! ## Fields of written records -/

namespace Raw

variable {members members' : List (Option String × Raw)} {names : List String} {name : String}

theorem lookup_cons (m : Option String × Raw) (members : List (Option String × Raw))
    (name : String) : lookup (m :: members) name =
      if m.1 = some name then m.2 :: lookup members name else lookup members name := by
  rw [lookup, List.filterMap_cons]
  split <;> simp_all [lookup]

/-- Distinct names are not repeated. -/
theorem length_lookup_le (distinct : (members.map (·.1)).Nodup) (name : String) :
    (lookup members name).length ≤ 1 := by
  induction members with
  | nil => exact Nat.zero_le 1
  | cons m members ih =>
    rw [List.map_cons, List.nodup_cons] at distinct
    rw [lookup_cons]
    split
    next same =>
      have absent : lookup members name = [] := by
        refine lookup_eq_nil_iff.mpr fun m' mem same' => ?_
        exact distinct.1 (List.mem_map.mpr ⟨m', mem, same'.trans same.symm⟩)
      simp [absent]
    next => exact ih distinct.2

theorem lookup_perm (perm : members.Perm members') (name : String) :
    (lookup members name).Perm (lookup members' name) :=
  perm.filterMap fun m : Option String × Raw => if m.1 = some name then some m.2 else none

/-- A list of one element at most has no other order. -/
theorem eq_of_perm_of_length_le {α : Type} {as bs : List α} (perm : as.Perm bs)
    (once : as.length ≤ 1) : bs = as := by
  match as, once, perm with
  | [], _, perm => exact List.nil_perm.mp perm
  | [a], _, perm => exact (List.singleton_perm.mp perm).symm

theorem lookup_eq_of_perm (perm : members.Perm members')
    (once : (lookup members name).length ≤ 1) : lookup members' name = lookup members name :=
  eq_of_perm_of_length_le (lookup_perm perm name) once

/-- **The order of distinct members does not matter to a record.** -/
theorem record_eq_of_perm (distinct : (members.map (·.1)).Nodup) (perm : members.Perm members') :
    record names (.object members') = record names (.object members) := by
  have same : lookup members' = lookup members :=
    funext fun name => lookup_eq_of_perm perm (length_lookup_le distinct name)
  rw [record, record, same, perm.all_eq]

/-- **A written record is read by the names of its members.** -/
theorem record_tree {members : List (String × Value)} (distinct : (members.map (·.1)).Nodup)
    (names : List String) : record names (Value.object members).tree =
      .ok fun name => (lookup (Value.treeMembers members) name).head? := by
  have once := length_lookup_le (Value.nodup_treeMembers distinct)
  refine record_object_eq_ok_iff.mpr ⟨fun name _ => once name, fun m mem => ?_, rfl⟩
  rw [Value.treeMembers_eq_map] at mem
  obtain ⟨m, -, rfl⟩ := List.mem_map.mp mem
  rfl

/-- **The members of a record may be sorted.** -/
theorem record_tree_sortKeys {members : List (String × Value)}
    (distinct : (members.map (·.1)).Nodup) (ordered : ∀ m ∈ members, m.2.Ordered)
    (names : List String) :
    record names (Value.object members).sortKeys.tree =
      record names (Value.object members).tree := by
  have same := Value.map_sortKeys_eq_self fun m mem => (ordered m mem).sortKeys_eq_self
  rw [Value.sortKeys_object, same, Value.tree, Value.tree]
  refine record_eq_of_perm (Value.nodup_treeMembers distinct) ?_
  rw [Value.treeMembers_eq_map, Value.treeMembers_eq_map]
  exact ((Value.sortMembers_perm members).map _).symm

end Raw

end Json

open Json (Raw Value)

/-! ## Texts -/

/-- **The texts of records bring the records back**: each is read as the record that it was written
from, and two records have different texts. -/
structure ReadBack {α : Type} (text : α → String) (parse : String → Except Json.Error α) : Prop where
  parsed : ∀ a, parse (text a) = .ok a
  distinct : ∀ a b, a ≠ b → text a ≠ text b

/-- **What is read back from its tree is read back from its text.** -/
theorem ReadBack.of_tree {α : Type} {write : α → Value} {read : Raw → Except Json.Error α}
    (free : ∀ a, (write a).FloatFree) (back : ∀ a, read (write a).tree = .ok a) :
    ReadBack (fun a => (write a).compact) fun s => Raw.parse s >>= read := by
  have parsed : ∀ a, (Raw.parse (write a).compact >>= read) = .ok a := fun a =>
    bind_eq_ok (Raw.parse_compact (free a)) (back a)
  refine ⟨parsed, fun a b ne same => ne ?_⟩
  have same : (write a).compact = (write b).compact := same
  have again := parsed b
  rw [← same, parsed a] at again
  exact Except.ok.inj again

end SessionDirectory
