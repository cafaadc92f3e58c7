import SessionDirectory.Json.Read
import SessionDirectory.Proofs.Except
import SessionDirectory.Proofs.Json.Members
import SessionDirectory.Proofs.Json.Scan

/-!
# Written values read back

The tokens of a written value build its tree, and the tree is read as the value: the members of an
object come in order and no name comes twice, so that the reader leaves them as they are. All it
takes is that the value is not nested deeper than a reader goes.

## Main definitions

* `Value.tree`: the tree of the text of a value
* `Value.NestedAtMost`: how deep containers are nested

## Main results

* `Value.run_tokens`: the tokens of a value build its tree
* `Raw.parse_compact`: the text of a value has the tree of the value
* `Value.Ordered.value_tree`: the tree of a value in order is read as the value
* `Raw.ordered_of_value_eq_ok`: every value that is read is in order
-/

set_option autoImplicit false

namespace SessionDirectory.Json

namespace Value

mutual

/-- The tree of the text of a value. -/
def tree : Value → Raw
  | .null => .null
  | .bool b => .bool b
  | .number n => .number (some n)
  | .string s => .string (some s)
  | .array items => .array (treeItems items)
  | .object members => .object (treeMembers members)

/-- The trees of items. -/
def treeItems : List Value → List Raw
  | [] => []
  | v :: rest => v.tree :: treeItems rest

/-- The trees of members, with their names. -/
def treeMembers : List (String × Value) → List (Option String × Raw)
  | [] => []
  | (name, v) :: rest => (some name, v.tree) :: treeMembers rest

end

/-- Containers are nested in each other at most a number of levels deep. -/
inductive NestedAtMost : Nat → Value → Prop where
  | null (depth : Nat) : NestedAtMost depth .null
  | bool (depth : Nat) (b : Bool) : NestedAtMost depth (.bool b)
  | number (depth : Nat) (n : Number) : NestedAtMost depth (.number n)
  | string (depth : Nat) (s : String) : NestedAtMost depth (.string s)
  | array {depth : Nat} {items : List Value} (each : ∀ v ∈ items, NestedAtMost depth v) :
      NestedAtMost (depth + 1) (.array items)
  | object {depth : Nat} {members : List (String × Value)}
      (each : ∀ m ∈ members, NestedAtMost depth m.2) : NestedAtMost (depth + 1) (.object members)

/-! ## Tokens build trees -/

open Reader

/-- A value does not start like the end of an array. -/
theorem run_firstItem (v : Value) (around : List Frame) (ts : List Token) :
    run (.firstItem around) (v.tokens ++ ts) =
      run (.value (.items [] :: around)) (v.tokens ++ ts) := by
  cases v with
  | null | bool | number | string => rfl
  | array items => cases items <;> rfl
  | object members =>
    cases members with
    | nil => rfl
    | cons m rest => obtain ⟨name, v⟩ := m; rfl

mutual

/-- **The tokens of a value build its tree.** -/
theorem run_tokens (v : Value) (around : List Frame) (ts : List Token) :
    run (.value around) (v.tokens ++ ts) = run (.after around v.tree) ts := by
  cases v with
  | null | bool | number | string => rfl
  | array items =>
    cases items with
    | nil => rfl
    | cons v rest =>
      -- The array stays open in front of its first item, and the later ones close it.
      show run (.firstItem around) (v.tokens ++ tokensItems rest ++ ts) = _
      rw [List.append_assoc, run_firstItem, run_tokens, run_tokensItems]
      rfl
  | object members =>
    cases members with
    | nil => rfl
    | cons m rest =>
      obtain ⟨name, v⟩ := m
      show run (.value (.members [] (some name) :: around))
        (v.tokens ++ tokensMembers rest ++ ts) = _
      rw [List.append_assoc, run_tokens, run_tokensMembers]
      rfl

/-- The tokens of the items after one that has been read. -/
theorem run_tokensItems (items : List Value) (done : List Raw) (r : Raw) (around : List Frame)
    (ts : List Token) :
    run (.after (.items done :: around) r) (tokensItems items ++ ts) =
      run (.after around (.array (done.reverse ++ r :: treeItems items))) ts := by
  cases items with
  | nil =>
    show run (.after around (.array (r :: done).reverse)) ts = _
    rw [List.reverse_cons]
    rfl
  | cons v rest =>
    show run (.value (.items (r :: done) :: around)) (v.tokens ++ tokensItems rest ++ ts) = _
    rw [List.append_assoc, run_tokens, run_tokensItems, List.reverse_cons, List.append_assoc]
    rfl

/-- The tokens of the members after one that has been read. -/
theorem run_tokensMembers (members : List (String × Value)) (done : List (Option String × Raw))
    (name : Option String) (r : Raw) (around : List Frame) (ts : List Token) :
    run (.after (.members done name :: around) r) (tokensMembers members ++ ts) =
      run (.after around (.object (done.reverse ++ (name, r) :: treeMembers members))) ts := by
  cases members with
  | nil =>
    show run (.after around (.object ((name, r) :: done).reverse)) ts = _
    rw [List.reverse_cons]
    rfl
  | cons m rest =>
    obtain ⟨next, v⟩ := m
    show run (.value (.members ((name, r) :: done) (some next) :: around))
      (v.tokens ++ tokensMembers rest ++ ts) = _
    rw [List.append_assoc, run_tokens, run_tokensMembers, List.reverse_cons, List.append_assoc]
    rfl

end

theorem ofTokens?_tokens (v : Value) : Raw.ofTokens? v.tokens = some v.tree := by
  have built := run_tokens v [] []
  rw [List.append_nil] at built
  rw [Raw.ofTokens?, built]
  rfl

end Value

/-- **The text of a value has the tree of the value.** -/
theorem Raw.parse_compact {v : Value} (free : v.FloatFree) : Raw.parse v.compact = .ok v.tree := by
  have scanned : Raw.parse? v.compact = some v.tree := by
    rw [Raw.parse?, Value.compact, String.toList_ofList, free.scan_write, Option.bind_some,
      Value.ofTokens?_tokens]
  rw [Raw.parse, scanned]

/-! ## Trees are read as values -/

theorem Value.ofMembers_eq (members : List (String × Value)) :
    Value.ofMembers members = .object (SortedMap.ofList members).entries := by
  have same : ∀ m : SortedMap String Value,
      members.foldl (fun done m => insertMember m done) m.entries =
        (m.insertAll members).entries := by
    induction members with
    | nil => exact fun _ => rfl
    | cons head rest ih => exact fun m => ih (m.insert head.1 head.2)
  exact congrArg Value.object (same SortedMap.empty)

namespace Raw

variable {depth : Nat}

theorem valueItems_treeItems {items : List Value}
    (each : ∀ v ∈ items, v.tree.value depth = .ok v) :
    valueItems depth (Value.treeItems items) = .ok items := by
  induction items with
  | nil => rfl
  | cons v rest ih =>
    rw [List.forall_mem_cons] at each
    rw [Value.treeItems, valueItems, each.1, ih each.2]
    rfl

theorem valueMembers_treeMembers {members : List (String × Value)}
    (each : ∀ m ∈ members, m.2.tree.value depth = .ok m.2) :
    valueMembers depth (Value.treeMembers members) = .ok members := by
  induction members with
  | nil => rfl
  | cons m rest ih =>
    obtain ⟨name, v⟩ := m
    rw [List.forall_mem_cons] at each
    have first : v.tree.value depth = .ok v := each.1
    rw [Value.treeMembers, valueMembers, first, ih each.2]
    rfl

end Raw

/-- **The tree of a value in order is read as the value**, if the value is not nested too deeply. -/
theorem Value.Ordered.value_tree {v : Value} (ordered : v.Ordered) {depth : Nat}
    (nested : v.NestedAtMost depth) : v.tree.value depth = .ok v := by
  induction ordered generalizing depth with
  | null | bool | number | string => rfl
  | @array items each ih =>
    cases nested with
    | array nested =>
      rw [Value.tree, Raw.value, Raw.valueItems_treeItems fun v mem => ih v mem (nested v mem)]
      rfl
  | @object members increase each ih =>
    cases nested with
    | object nested =>
      -- No name comes twice, so the members are kept as they come.
      rw [Value.tree, Raw.value, Raw.valueMembers_treeMembers fun m mem => ih m mem (nested m mem)]
      show Except.ok (Value.ofMembers members) = _
      rw [Value.ofMembers_eq, SortedMap.entries_ofList increase]

/-- The object of members that are in order is in order. -/
theorem Value.ordered_ofMembers {members : List (String × Value)}
    (each : ∀ m ∈ members, m.2.Ordered) : (Value.ofMembers members).Ordered := by
  rw [Value.ofMembers_eq]
  refine .object (SortedMap.ofList members).increasing fun m mem => ?_
  exact each m ((SortedMap.mem_insertAll mem).resolve_left List.not_mem_nil)

theorem Value.NestedAtMost.mono {v : Value} {depth depth' : Nat} (nested : v.NestedAtMost depth)
    (le : depth ≤ depth') : v.NestedAtMost depth' := by
  induction nested generalizing depth' with
  | null => exact .null _
  | bool _ b => exact .bool _ b
  | number _ n => exact .number _ n
  | string _ s => exact .string _ s
  | array each ih =>
    obtain ⟨depth', rfl⟩ := Nat.exists_eq_add_of_lt le
    exact .array fun v mem => ih v mem (by omega)
  | object each ih =>
    obtain ⟨depth', rfl⟩ := Nat.exists_eq_add_of_lt le
    exact .object fun m mem => ih m mem (by omega)

theorem Value.nestedAtMost_ofMembers {members : List (String × Value)} {depth : Nat}
    (each : ∀ m ∈ members, m.2.NestedAtMost depth) :
    (Value.ofMembers members).NestedAtMost (depth + 1) := by
  rw [Value.ofMembers_eq]
  refine .object fun m mem => ?_
  exact each m ((SortedMap.mem_insertAll mem).resolve_left List.not_mem_nil)

namespace Raw

mutual

/-- **Every value that is read is in order**, and is nested as deeply as a reader goes at most. -/
theorem ordered_of_value_eq_ok {r : Raw} {depth : Nat} {v : Value} (read : r.value depth = .ok v) :
    v.Ordered ∧ v.NestedAtMost depth := by
  cases r with
  | null => cases read; exact ⟨.null, .null _⟩
  | bool b => cases read; exact ⟨.bool b, .bool _ b⟩
  | number n =>
    cases n with
    | none => cases read
    | some n => cases read; exact ⟨.number n, .number _ n⟩
  | string s =>
    cases s with
    | none => cases read
    | some s => cases read; exact ⟨.string s, .string _ s⟩
  | array items =>
    -- A container is read only where one more level may be opened.
    cases depth with
    | zero => cases read
    | succ depth =>
      rw [value] at read
      cases each : valueItems depth items with
      | error e => rw [each] at read; cases read
      | ok vs =>
        rw [each] at read
        cases read
        have each := ordered_of_valueItems_eq_ok each
        exact ⟨.array fun v mem => (each v mem).1, .array fun v mem => (each v mem).2⟩
  | object members =>
    cases depth with
    | zero => cases read
    | succ depth =>
      rw [value] at read
      cases each : valueMembers depth members with
      | error e => rw [each] at read; cases read
      | ok ms =>
        rw [each] at read
        cases read
        have each := ordered_of_valueMembers_eq_ok each
        exact ⟨Value.ordered_ofMembers fun m mem => (each m mem).1,
          Value.nestedAtMost_ofMembers fun m mem => (each m mem).2⟩

theorem ordered_of_valueItems_eq_ok {items : List Raw} {depth : Nat} {vs : List Value}
    (read : valueItems depth items = .ok vs) : ∀ v ∈ vs, v.Ordered ∧ v.NestedAtMost depth := by
  cases items with
  | nil => cases read; simp
  | cons r rest =>
    obtain ⟨v, first, read⟩ := exists_of_bind_eq_ok read
    obtain ⟨vs, later, read⟩ := exists_of_bind_eq_ok read
    cases read
    exact List.forall_mem_cons.mpr
      ⟨ordered_of_value_eq_ok first, ordered_of_valueItems_eq_ok later⟩

theorem ordered_of_valueMembers_eq_ok {members : List (Option String × Raw)} {depth : Nat}
    {ms : List (String × Value)} (read : valueMembers depth members = .ok ms) :
    ∀ m ∈ ms, m.2.Ordered ∧ m.2.NestedAtMost depth := by
  cases members with
  | nil => cases read; simp
  | cons m rest =>
    obtain ⟨name, r⟩ := m
    obtain ⟨name, -, read⟩ := exists_of_bind_eq_ok read
    obtain ⟨v, first, read⟩ := exists_of_bind_eq_ok read
    obtain ⟨ms, later, read⟩ := exists_of_bind_eq_ok read
    cases read
    exact List.forall_mem_cons.mpr
      ⟨ordered_of_value_eq_ok first, ordered_of_valueMembers_eq_ok later⟩

end

end Raw

end SessionDirectory.Json
