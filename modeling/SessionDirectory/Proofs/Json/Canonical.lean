import Mathlib.Data.List.Forall2
import Mathlib.Data.List.Perm.Basic
import SessionDirectory.Proofs.Json.Members
import SessionDirectory.Update.Batch

/-!
# The canonical form of values

Sorting the members of every object gives each value a form of its own: two values have the same form
exactly if they differ in the order of members only, at whatever depth. So what is written from a
sorted value, as a body or indented, does not depend on the order in which the members came.

Values are compared in two ways: piece by piece, with the members of one object matched with those of
the other in some order, and by what paths of names and indices reach in them. The names of an object
are taken to be distinct, since a repeated one could not be told from the other.

## Main definitions

* `Value.Unambiguous`: no object, at any depth, has a name twice
* `Value.Reordered`: two values are the same up to the order of members
* `Value.reach?`: what a path of names and indices reaches
* `Value.SamePaths`: paths reach the same scalars, arrays of the same length and the same names
* `Value.Canonical`: what the sorted value is

## Main results

* `Value.Unambiguous.ordered_sortKeys`: the sorted value is in order
* `Value.Unambiguous.reordered_iff`: which values have the same form
* `Value.Unambiguous.reordered_sortKeys`: the sorted value is the same up to the order of members
* `Value.Unambiguous.reach?_sortKeys`: what a path reaches in it
* `Value.canonical_sortKeys`: sorting brings every value into its canonical form
-/

set_option autoImplicit false

namespace SessionDirectory.Json

/-- A step into a value: to the member of a name, or to the item at an index. -/
inductive PathStep where
  | member (name : String)
  | item (index : Nat)

namespace Value

/-- What a step reaches. -/
def child? : Value → PathStep → Option Value
  | .object members, .member name => findEntry? name members
  | .array items, .item index => items[index]?
  | _, _ => none

/-- **What a path of names and indices reaches.** -/
def reach? : Value → List PathStep → Option Value
  | v, [] => some v
  | v, step :: path => (v.child? step).bind fun child => child.reach? path

/-- A value without parts. -/
inductive IsScalar : Value → Prop where
  | null : IsScalar .null
  | bool (b : Bool) : IsScalar (.bool b)
  | number (n : Number) : IsScalar (.number n)
  | string (s : String) : IsScalar (.string s)

/-- No object, at any depth, has a name twice. -/
inductive Unambiguous : Value → Prop where
  | null : Unambiguous .null
  | bool (b : Bool) : Unambiguous (.bool b)
  | number (n : Number) : Unambiguous (.number n)
  | string (s : String) : Unambiguous (.string s)
  | array {items : List Value} (each : ∀ v ∈ items, Unambiguous v) : Unambiguous (.array items)
  | object {members : List (String × Value)} (distinct : (members.map (·.1)).Nodup)
      (each : ∀ m ∈ members, Unambiguous m.2) : Unambiguous (.object members)

/-- **Two values are the same up to the order of members.** Arrays agree item by item; the members of
an object agree, each in its name and its value, with the members of the other one in some order. -/
inductive Reordered : Value → Value → Prop where
  | null : Reordered .null .null
  | bool (b : Bool) : Reordered (.bool b) (.bool b)
  | number (n : Number) : Reordered (.number n) (.number n)
  | string (s : String) : Reordered (.string s) (.string s)
  | array {items items' : List Value} (length : items.length = items'.length)
      (each : ∀ p ∈ items.zip items', Reordered p.1 p.2) : Reordered (.array items) (.array items')
  | object {members matched members' : List (String × Value)} (perm : matched.Perm members')
      (length : members.length = matched.length)
      (names : ∀ p ∈ members.zip matched, p.1.1 = p.2.1)
      (each : ∀ p ∈ members.zip matched, Reordered p.1.2 p.2.2) :
      Reordered (.object members) (.object members')

/-- **Every path reaches the same in two values**: the same scalar, arrays of the same length or
objects of the same names. -/
structure SamePaths (v w : Value) : Prop where
  scalar : ∀ path s, IsScalar s → (w.reach? path = some s ↔ v.reach? path = some s)
  array : ∀ path length, (∃ items, w.reach? path = some (.array items) ∧ items.length = length) ↔
    ∃ items, v.reach? path = some (.array items) ∧ items.length = length
  object : ∀ path names,
    (∃ members, w.reach? path = some (.object members) ∧ (members.map (·.1)).Perm names) ↔
      ∃ members, v.reach? path = some (.object members) ∧ (members.map (·.1)).Perm names

/-- **The sorted value is the canonical form of a value.** -/
structure Canonical (v : Value) : Prop where
  /-- The names of every object, at any depth, increase strictly, by code point. -/
  ordered : v.sortKeys.Ordered
  /-- Nothing but the order of members has changed, -/
  reordered : v.Reordered v.sortKeys
  /-- neither for who compares piece by piece nor for who follows paths. -/
  paths : SamePaths v v.sortKeys
  again : v.sortKeys.sortKeys = v.sortKeys
  /-- The values of this form are those that differ in the order of members only. -/
  unique : ∀ w, v.Reordered w ↔ w.sortKeys = v.sortKeys
  /-- So they are written alike, -/
  texts : ∀ w, v.Reordered w →
    w.sortKeys.compact = v.sortKeys.compact ∧ w.sortKeys.pretty = v.sortKeys.pretty
  /-- and so are the bodies of updates and of batches of them. -/
  fields : ∀ f g : UpdateFields, f.toJson = v → v.Reordered g.toJson →
    g.requestBody.compact = f.requestBody.compact
  batches : ∀ b c : BatchUpdate, .object b.members.entries = v →
    v.Reordered (.object c.members.entries) → c.requestBody.compact = b.requestBody.compact

variable {v w : Value} {items : List Value} {members members' : List (String × Value)}

/-! ## Sorted members -/

/-- Sorted members with distinct names are in strictly increasing order. -/
theorem keysIncrease_sortMembers (distinct : (members.map (·.1)).Nodup) :
    KeysIncrease (sortMembers members) := by
  have sorted : (sortMembers members).Pairwise fun a b => decide (a.1 ≤ b.1) = true := by
    apply List.pairwise_mergeSort
    · intro a b c ab bc
      exact decide_eq_true (String.le_trans (of_decide_eq_true ab) (of_decide_eq_true bc))
    · intro a b
      simpa using String.le_total a.1 b.1
  have names : ((sortMembers members).map (·.1)).Nodup :=
    ((sortMembers_perm members).map _).nodup_iff.mpr distinct
  refine List.Pairwise.imp₂ ?_ sorted (List.pairwise_map.mp names)
  intro a b le ne
  have lt : a.1 < b.1 := Std.lt_of_le_of_ne (of_decide_eq_true le) ne
  exact compareOfLessAndEq_eq_lt.mpr lt

/-- The order of members with distinct names is lost in sorting. -/
theorem sortMembers_eq_of_perm (distinct : (members.map (·.1)).Nodup)
    (perm : members.Perm members') : sortMembers members' = sortMembers members := by
  have distinct' := (perm.map (·.1)).nodup_iff.mp distinct
  refine (keysIncrease_sortMembers distinct').eq_of_perm (keysIncrease_sortMembers distinct) ?_
  exact (sortMembers_perm members').trans (perm.symm.trans (sortMembers_perm members).symm)

/-! ## What is sorted into a form

A value and its form are of one kind. -/

theorem IsScalar.sortKeys_eq_iff {s : Value} (scalar : s.IsScalar) : v.sortKeys = s ↔ v = s := by
  cases scalar <;> cases v <;> simp [sortKeys]

theorem sortKeys_eq_array_iff {sorted : List Value} :
    v.sortKeys = .array sorted ↔ ∃ items, v = .array items ∧ items.map sortKeys = sorted := by
  cases v <;> simp [sortKeys, sortKeysItems_eq_map]

theorem sortKeys_eq_object_iff {sorted : List (String × Value)} :
    v.sortKeys = .object sorted ↔ ∃ members, v = .object members ∧
      sortMembers (members.map fun m => (m.1, m.2.sortKeys)) = sorted := by
  cases v <;> simp [sortKeys, sortKeysMembers_eq_map]

/-! ## Order -/

/-- **The sorted value is in order.** -/
theorem Unambiguous.ordered_sortKeys (unambiguous : v.Unambiguous) : v.sortKeys.Ordered := by
  induction unambiguous with
  | null => exact .null
  | bool b => exact .bool b
  | number n => exact .number n
  | string s => exact .string s
  | array each ih =>
    rw [sortKeys_array]
    exact .array (List.forall_mem_map.mpr ih)
  | @object members distinct each ih =>
    -- Sorting inside of the values leaves the names, so they are distinct where they are sorted.
    rw [sortKeys_object]
    rw [← map_fst_sortKeys] at distinct
    refine .object (keysIncrease_sortMembers distinct) fun m mem => ?_
    obtain ⟨m', listed, rfl⟩ := List.mem_map.mp ((sortMembers_perm _).mem_iff.mp mem)
    exact ih m' listed

/-! ## Values up to the order of members -/

/-- Two lists have the same images exactly if they have as many elements and these agree in pairs. -/
theorem map_eq_map_iff_zip {α β γ : Type} {f : α → γ} {g : β → γ} {as : List α} {bs : List β} :
    as.map f = bs.map g ↔ as.length = bs.length ∧ ∀ p ∈ as.zip bs, f p.1 = g p.2 := by
  rw [← List.forall₂_eq_eq_eq, List.forall₂_map_left_iff, List.forall₂_map_right_iff,
    List.forall₂_iff_zip]
  exact and_congr_right fun _ => ⟨fun each p mem => each mem, fun each _ _ mem => each _ mem⟩

/-- **Values that are the same up to the order of members have the same form.** -/
theorem Reordered.sortKeys_eq (same : v.Reordered w) (unambiguous : v.Unambiguous) :
    w.sortKeys = v.sortKeys := by
  induction same with
  | null | bool | number | string => rfl
  | @array items items' length each ih =>
    cases unambiguous with
    | array unambiguous =>
      rw [sortKeys_array, sortKeys_array]
      have images : items.map sortKeys = items'.map sortKeys :=
        map_eq_map_iff_zip.mpr ⟨length, fun p mem =>
          (ih p mem (unambiguous p.1 (List.of_mem_zip mem).1)).symm⟩
      rw [images]
  | @object members matched members' perm length names each ih =>
    cases unambiguous with
    | object distinct unambiguous =>
      -- The matched members are sorted into the same ones, and then their order is lost.
      have images : (members.map fun m => (m.1, m.2.sortKeys)) =
          matched.map fun m => (m.1, m.2.sortKeys) := by
        refine map_eq_map_iff_zip.mpr ⟨length, fun p mem => ?_⟩
        rw [names p mem, ih p mem (unambiguous p.1 (List.of_mem_zip mem).1)]
      rw [sortKeys_object, sortKeys_object, images]
      rw [← map_fst_sortKeys, images] at distinct
      exact congrArg Value.object (sortMembers_eq_of_perm distinct (perm.map _))

/-- **Values of the same form are the same up to the order of members.** -/
theorem Unambiguous.reordered_of_sortKeys_eq (unambiguous : v.Unambiguous)
    (same : w.sortKeys = v.sortKeys) : v.Reordered w := by
  -- A value of the form of a scalar is the scalar, and containers go on with what is in them.
  induction unambiguous generalizing w with
  | null =>
    rw [IsScalar.null.sortKeys_eq_iff.mp same]
    exact .null
  | bool b =>
    rw [(IsScalar.bool b).sortKeys_eq_iff.mp same]
    exact .bool b
  | number n =>
    rw [(IsScalar.number n).sortKeys_eq_iff.mp same]
    exact .number n
  | string s =>
    rw [(IsScalar.string s).sortKeys_eq_iff.mp same]
    exact .string s
  | @array items each ih =>
    rw [sortKeys_array] at same
    obtain ⟨items', rfl, images⟩ := sortKeys_eq_array_iff.mp same
    obtain ⟨length, images⟩ := map_eq_map_iff_zip.mp images.symm
    exact .array length fun p mem => ih p.1 (List.of_mem_zip mem).1 (images p mem).symm
  | @object members distinct each ih =>
    rw [sortKeys_object] at same
    obtain ⟨members', rfl, sorted⟩ := sortKeys_eq_object_iff.mp same
    -- Sorting only moves members, so those of the one are sorted into those of the other.
    have perm : (members.map fun m => (m.1, m.2.sortKeys)).Perm
        (members'.map fun m => (m.1, m.2.sortKeys)) := by
      refine (sortMembers_perm _).symm.trans ?_
      rw [← sorted]
      exact sortMembers_perm _
    obtain ⟨matched, images, perm⟩ := (congrFun₂ (List.eq_map_comp_perm _) _ _).mpr perm
    obtain ⟨length, images⟩ := map_eq_map_iff_zip.mp images
    apply Reordered.object perm length
    · intro p mem
      exact (Prod.mk.inj (images p mem)).1
    · intro p mem
      exact ih p.1 (List.of_mem_zip mem).1 (Prod.mk.inj (images p mem)).2.symm

/-- **The values of one form are those that differ in the order of members only.** -/
theorem Unambiguous.reordered_iff (unambiguous : v.Unambiguous) :
    v.Reordered w ↔ w.sortKeys = v.sortKeys :=
  ⟨fun same => same.sortKeys_eq unambiguous, unambiguous.reordered_of_sortKeys_eq⟩

/-- **The sorted value is the same up to the order of members**, as it is in its form already. -/
theorem Unambiguous.reordered_sortKeys (unambiguous : v.Unambiguous) : v.Reordered v.sortKeys :=
  unambiguous.reordered_of_sortKeys_eq unambiguous.ordered_sortKeys.sortKeys_eq_self

/-! ## Paths -/

/-- What a step reaches has distinct names. -/
theorem Unambiguous.of_child? {child : Value} {step : PathStep} (unambiguous : v.Unambiguous)
    (reached : v.child? step = some child) : child.Unambiguous := by
  cases unambiguous with
  | null | bool | number | string => cases step <;> cases reached
  | @array items each =>
    cases step with
    | member name => cases reached
    | item index => exact each child (List.mem_of_getElem? reached)
  | @object members distinct each =>
    cases step with
    | member name => exact each _ ((findEntry?_eq_some_iff_of_nodup distinct).mp reached)
    | item index => cases reached

/-- A step reaches in the sorted value what it reaches in the value, sorted. -/
theorem Unambiguous.child?_sortKeys (unambiguous : v.Unambiguous) (step : PathStep) :
    v.sortKeys.child? step = (v.child? step).map sortKeys := by
  cases unambiguous with
  | null | bool | number | string => cases step <;> rfl
  | @array items each =>
    rw [sortKeys_array]
    cases step with
    | member name => rfl
    | item index => exact List.getElem?_map
  | @object members distinct each =>
    rw [sortKeys_object]
    cases step with
    | member name =>
      -- Where names are distinct, the member of a name is found in any order.
      rw [← map_fst_sortKeys] at distinct
      exact (findEntry?_eq_of_perm distinct (sortMembers_perm _).symm).trans
        (findEntry?_map sortKeys name members)
    | item index => rfl

/-- **A path reaches in the sorted value what it reaches in the value, sorted.** -/
theorem Unambiguous.reach?_sortKeys (unambiguous : v.Unambiguous) (path : List PathStep) :
    v.sortKeys.reach? path = (v.reach? path).map sortKeys := by
  induction path generalizing v with
  | nil => rfl
  | cons step path ih =>
    rw [reach?, reach?, unambiguous.child?_sortKeys]
    cases reached : v.child? step with
    | none => rfl
    | some child => exact ih (unambiguous.of_child? reached)

/-- **Every path reaches the same in a value and in the sorted one.** -/
theorem Unambiguous.samePaths (unambiguous : v.Unambiguous) : SamePaths v v.sortKeys where
  scalar := by
    intro path s scalar
    rw [unambiguous.reach?_sortKeys, Option.map_eq_some_iff]
    simp only [scalar.sortKeys_eq_iff, exists_eq_right]
  array := by
    intro path length
    rw [unambiguous.reach?_sortKeys]
    constructor
    · rintro ⟨sorted, reached, rfl⟩
      obtain ⟨found, there, kind⟩ := Option.map_eq_some_iff.mp reached
      obtain ⟨items, rfl, rfl⟩ := sortKeys_eq_array_iff.mp kind
      exact ⟨items, there, (List.length_map _).symm⟩
    · rintro ⟨items, reached, rfl⟩
      refine ⟨items.map sortKeys, ?_, List.length_map _⟩
      rw [reached, Option.map_some, sortKeys_array]
  object := by
    intro path names
    rw [unambiguous.reach?_sortKeys]
    constructor
    · rintro ⟨sorted, reached, perm⟩
      obtain ⟨found, there, kind⟩ := Option.map_eq_some_iff.mp reached
      obtain ⟨members, rfl, rfl⟩ := sortKeys_eq_object_iff.mp kind
      exact ⟨members, there, (names_sortMembers_perm members).symm.trans perm⟩
    · rintro ⟨members, reached, perm⟩
      refine ⟨sortMembers (members.map fun m => (m.1, m.2.sortKeys)), ?_,
        (names_sortMembers_perm members).trans perm⟩
      rw [reached, Option.map_some, sortKeys_object]

/-! ## The canonical form -/

/-- **Sorting brings every value into its canonical form.** -/
theorem canonical_sortKeys (unambiguous : v.Unambiguous) : Canonical v where
  ordered := unambiguous.ordered_sortKeys
  reordered := unambiguous.reordered_sortKeys
  paths := unambiguous.samePaths
  again := unambiguous.ordered_sortKeys.sortKeys_eq_self
  unique := fun _ => unambiguous.reordered_iff
  texts := by
    intro w same
    rw [same.sortKeys_eq unambiguous]
    exact ⟨rfl, rfl⟩
  fields := by
    rintro f g rfl same
    exact congrArg compact (same.sortKeys_eq unambiguous)
  batches := by
    rintro b c rfl same
    exact congrArg compact (same.sortKeys_eq unambiguous)

/-- A value with an object in an array in an object, and names that are not in order. -/
def unsorted : Value :=
  .object [("hosts", .array [.object [("port", .null), ("address", .string "lan")], .bool true]),
    ("extra", .null)]

theorem canonical_sortKeys_unsorted : unsorted.Unambiguous ∧ Canonical unsorted := by
  have host : Unambiguous (.object [("port", .null), ("address", .string "lan")]) := by
    apply Unambiguous.object (by decide)
    simp only [List.forall_mem_cons]
    exact ⟨.null, .string _, List.forall_mem_nil _⟩
  have hosts : Unambiguous
      (.array [.object [("port", .null), ("address", .string "lan")], .bool true]) := by
    apply Unambiguous.array
    simp only [List.forall_mem_cons]
    exact ⟨host, .bool true, List.forall_mem_nil _⟩
  have unambiguous : unsorted.Unambiguous := by
    apply Unambiguous.object (by decide)
    simp only [List.forall_mem_cons]
    exact ⟨hosts, .null, List.forall_mem_nil _⟩
  exact ⟨unambiguous, canonical_sortKeys unambiguous⟩

end Value

end SessionDirectory.Json
