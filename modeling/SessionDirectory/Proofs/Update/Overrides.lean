import Mathlib.Data.Set.List
import SessionDirectory.Proofs.Json.ReadBack
import SessionDirectory.Proofs.Text
import SessionDirectory.Update.Fields

/-!
# Overrides and lists of names

Each flag that is given on the command line sets one field. The names of the users are given as one
text, a list of items between commas: an item is a name with blanks around it, or blanks only. Every
text is such a list, and what is sent are the names of its items, whatever the blanks are.

## Main definitions

* `UpdateOverrides.flags`: the flags, each with its field and the value if it is given
* `FieldPerFlag`: there is one field for each flag that is given, and no other
* `IsName`: a name as it is sent
* `NameItem`: what may stand between two commas
* `Lists`: a text is a list of names
* `OverrideLaws`: what the overrides send

## Main results

* `UpdateOverrides.fieldPerFlag`: one field for each flag that is given
* `splitNames_eq_iff`: the names that are read are those that the text is a list of
* `splitNames_intercalate`: names that are joined by commas are read back
* `overrideLaws`: what the overrides send, for all of them
-/

set_option autoImplicit false

namespace SessionDirectory

open Json (Value)
open UpdateOverrides (splitNames)

/-! ## One field for each flag -/

namespace UpdateOverrides

/-- The flags, each with its field and the value of the field if the flag is given. -/
def flags (o : UpdateOverrides) : List (String × Option Value) :=
  [("nsfm", o.nsfm.map fun word => .bool (word == "true")),
    ("password", o.password.map fun word => .bool (word == "true")),
    ("title", o.title.map .string),
    ("users", o.users.map fun count => .number (.integer (.ofUInt32 count))),
    ("usernames", o.usernames.map fun text => .ofStrings (splitNames text))]

/-- The fields of the flags that are given. -/
def given (o : UpdateOverrides) : List (String × Value) :=
  o.flags.filterMap fun flag => flag.2.map (flag.1, ·)

end UpdateOverrides

/-- **There is one field for each flag that is given**, and no other; they are sent as they are. -/
structure FieldPerFlag (o : UpdateOverrides) : Prop where
  each : ∀ flag ∈ o.flags, o.toFields.get? flag.1 = flag.2
  only : ∀ name ∈ o.toFields.keys, name ∈ o.flags.map (·.1)
  size : o.toFields.size = o.flags.countP fun flag => flag.2.isSome
  body : o.toFields.requestBody = .object o.toFields.entries

namespace UpdateOverrides

variable {o : UpdateOverrides} {name : String} {value : Value}

theorem mem_given_iff : (name, value) ∈ o.given ↔ (name, some value) ∈ o.flags := by
  simp only [given, List.mem_filterMap, Option.map_eq_some_iff, Prod.mk.injEq]
  constructor
  · rintro ⟨⟨_, _⟩, mem, _, rfl, rfl, rfl⟩
    exact mem
  · intro mem
    exact ⟨_, mem, value, rfl, rfl, rfl⟩

theorem nodup_flags (o : UpdateOverrides) : (o.flags.map (·.1)).Nodup := by
  show ["nsfm", "password", "title", "users", "usernames"].Nodup
  decide

theorem nodup_given (o : UpdateOverrides) : (o.given.map (·.1)).Nodup := by
  refine List.pairwise_map.mpr ?_
  refine (List.pairwise_map.mp o.nodup_flags).filterMap _ fun a b ne field given field' given' => ?_
  obtain ⟨_, -, rfl⟩ := Option.map_eq_some_iff.mp given
  obtain ⟨_, -, rfl⟩ := Option.map_eq_some_iff.mp given'
  exact ne

/-- **The fields are those of the flags that are given.** -/
theorem toFields_eq_ofList (o : UpdateOverrides) : o.toFields = SortedMap.ofList o.given := by
  obtain ⟨_ | title, _ | users, _ | usernames, _ | nsfm, _ | password⟩ := o <;> rfl

theorem get?_toFields_eq_some_iff : o.toFields.get? name = some value ↔
    (name, some value) ∈ o.flags := by
  rw [toFields_eq_ofList, SortedMap.get?_ofList_eq_some_iff o.nodup_given, mem_given_iff]

/-- No field has a value with members to sort. -/
theorem ordered_of_mem_flags (mem : (name, some value) ∈ o.flags) : value.Ordered := by
  simp only [flags, List.mem_cons, Prod.mk.injEq, List.not_mem_nil, or_false] at mem
  rcases mem with ⟨-, given⟩ | ⟨-, given⟩ | ⟨-, given⟩ | ⟨-, given⟩ | ⟨-, given⟩
  all_goals
    obtain ⟨_, -, rfl⟩ := Option.map_eq_some_iff.mp given.symm
    simp

/-- **There is one field for each flag that is given.** -/
theorem fieldPerFlag (o : UpdateOverrides) : FieldPerFlag o where
  each flag mem := by
    refine Option.ext fun value => ?_
    rw [get?_toFields_eq_some_iff]
    constructor
    · intro given
      -- No other flag has this field.
      have same := List.inj_on_of_nodup_map o.nodup_flags given mem rfl
      rw [← same]
    · intro given
      rw [← given]
      exact mem
  only name mem := by
    obtain ⟨value, found⟩ := SortedMap.mem_keys_iff.mp mem
    exact List.mem_map_of_mem (get?_toFields_eq_some_iff.mp found)
  size := by
    rw [toFields_eq_ofList, SortedMap.size_ofList_eq_iff.mpr o.nodup_given, given,
      List.length_filterMap_eq_countP]
    simp
  body := by
    refine Value.Ordered.sortKeys_eq_self (.object o.toFields.increasing fun e mem => ?_)
    exact ordered_of_mem_flags (get?_toFields_eq_some_iff.mp (SortedMap.get?_eq_some_iff.mpr mem))

theorem member?_usernames {text : String} (given : o.usernames = some text) :
    o.toFields.requestBody.member? "usernames" = some (.ofStrings (splitNames text)) := by
  have mem : ("usernames", some (.ofStrings (splitNames text))) ∈ o.flags := by simp [flags, given]
  rw [o.fieldPerFlag.body]
  exact o.fieldPerFlag.each _ mem

end UpdateOverrides

/-! ## Lists of names -/

/-- **A name as it is sent**: not empty, without commas, and without blanks at its ends. -/
structure IsName (name : String) : Prop where
  nonempty : name ≠ ""
  plain : ',' ∉ name.toList
  tight : Text.Tight name.toList

/-- Any number of blanks. -/
structure Blanks where
  text : String
  blank : Text.AllBlank text.toList

/-- **What may stand between two commas** of a list of names: a name between blanks, or blanks
only. -/
inductive NameItem where
  | blank (blanks : Blanks)
  | named (before : Blanks) (name : String) (isName : IsName name) (after : Blanks)

namespace NameItem

/-- The text of an item. -/
def text : NameItem → String
  | .blank blanks => blanks.text
  | .named before name _ after => before.text ++ name ++ after.text

/-- The name of an item, if it has one. -/
def name? : NameItem → Option String
  | .blank _ => none
  | .named _ name _ _ => some name

end NameItem

/-- **A text is a list of names**: it consists of items, joined by commas, that have these names, in
this order. -/
def Lists (text : String) (names : List String) : Prop :=
  ∃ items : List NameItem,
    ",".intercalate (items.map NameItem.text) = text ∧ items.filterMap NameItem.name? = names

section Names

variable {text name : String} {names : List String} {part : List Char}

/-! ### Items -/

/-- The name in a part of a list of names, unless the part is blank. -/
def nameIn? (part : List Char) : Option String :=
  if (Text.trim part).isEmpty then none else some (String.ofList (Text.trim part))

theorem splitNames_eq_filterMap (text : String) :
    splitNames text = (Text.split ',' text.toList).filterMap nameIn? := by
  rw [splitNames]
  induction Text.split ',' text.toList with
  | nil => rfl
  | cons part parts ih =>
    rw [List.filterMap_cons, nameIn?, ← ih, List.map_cons, List.filter_cons]
    cases (Text.trim part).isEmpty <;> rfl

theorem comma_not_mem_of_allBlank (blank : Text.AllBlank part) : ',' ∉ part := by
  intro mem
  exact absurd (blank _ mem) (by decide)

namespace NameItem

theorem comma_not_mem_text (item : NameItem) : ',' ∉ item.text.toList := by
  cases item with
  | blank blanks => exact comma_not_mem_of_allBlank blanks.blank
  | named before name isName after =>
    simp only [text, String.toList_append, List.mem_append, not_or]
    exact ⟨⟨comma_not_mem_of_allBlank before.blank, isName.plain⟩,
      comma_not_mem_of_allBlank after.blank⟩

theorem nameIn?_text (item : NameItem) : nameIn? item.text.toList = item.name? := by
  cases item with
  | blank blanks =>
    rw [nameIn?, text, Text.trim_eq_nil_iff.mpr blanks.blank]
    rfl
  | named before name isName after =>
    have nonempty : name.toList ≠ [] := by simpa using isName.nonempty
    have trimmed : Text.trim (before.text ++ name ++ after.text).toList = name.toList := by
      rw [String.toList_append, String.toList_append]
      exact Text.trim_append isName.tight nonempty before.blank after.blank
    rw [nameIn?, text, trimmed, if_neg (by simpa using nonempty), String.ofList_toList, name?]

/-- **Every part without commas is an item.** -/
theorem exists_text_eq (plain : ',' ∉ part) : ∃ item : NameItem, item.text.toList = part := by
  by_cases blank : Text.AllBlank part
  · exact ⟨.blank ⟨String.ofList part, by rwa [String.toList_ofList]⟩, String.toList_ofList⟩
  · -- The name is what trimming leaves.
    obtain ⟨before, after, blankBefore, blankAfter, eq⟩ := Text.exists_eq_append_trim part
    have isName : IsName (String.ofList (Text.trim part)) := by
      refine ⟨?_, ?_, ?_⟩
      · intro empty
        exact blank (Text.trim_eq_nil_iff.mp (by simpa using congrArg String.toList empty))
      · rw [String.toList_ofList]
        intro mem
        rw [← eq] at plain
        exact plain (List.mem_append_left _ (List.mem_append_right _ mem))
      · rw [String.toList_ofList]
        exact Text.tight_trim part
    refine ⟨.named ⟨String.ofList before, by rwa [String.toList_ofList]⟩ _ isName
      ⟨String.ofList after, by rwa [String.toList_ofList]⟩, ?_⟩
    simp only [text, String.toList_append, String.toList_ofList, eq]

theorem isName_of_name?_eq_some {item : NameItem} (named : item.name? = some name) :
    IsName name := by
  cases item with
  | blank blanks => cases named
  | named before name isName after =>
    cases named
    exact isName

end NameItem

/-! ### Lists of items -/

theorem toList_intercalate_text (items : List NameItem) :
    (",".intercalate (items.map NameItem.text)).toList =
      [','].intercalate (items.map fun item => item.text.toList) := by
  rw [String.toList_intercalate, List.map_map]
  rfl

/-- **The names of a list of items are read**, whatever the blanks are. -/
theorem splitNames_intercalate_text (items : List NameItem) :
    splitNames (",".intercalate (items.map NameItem.text)) = items.filterMap NameItem.name? := by
  cases items with
  | nil => rfl
  | cons item items =>
    have plain : ∀ part ∈ (item :: items).map (fun item => item.text.toList), ',' ∉ part := by
      intro part mem
      obtain ⟨item, -, rfl⟩ := List.mem_map.mp mem
      exact item.comma_not_mem_text
    rw [splitNames_eq_filterMap, toList_intercalate_text,
      Text.split_intercalate plain (List.cons_ne_nil _ _), List.filterMap_map]
    exact List.filterMap_congr fun item _ => item.nameIn?_text

/-- **Every text is a list of items.** -/
theorem exists_items (text : String) :
    ∃ items : List NameItem, ",".intercalate (items.map NameItem.text) = text := by
  have parts : Text.split ',' text.toList ∈
      Set.range (List.map fun item : NameItem => item.text.toList) := by
    rw [Set.range_list_map]
    exact fun part mem => NameItem.exists_text_eq (Text.not_mem_of_mem_split mem)
  obtain ⟨items, parts⟩ := parts
  refine ⟨items, String.toList_injective ?_⟩
  rw [toList_intercalate_text, parts, Text.intercalate_split]

/-- **The names that are read are those that the text is a list of.** -/
theorem splitNames_eq_iff : splitNames text = names ↔ Lists text names := by
  constructor
  · rintro rfl
    obtain ⟨items, rfl⟩ := exists_items text
    exact ⟨items, rfl, (splitNames_intercalate_text items).symm⟩
  · rintro ⟨items, rfl, rfl⟩
    exact splitNames_intercalate_text items

/-- Blanks of all kinds around names, and items without one. -/
example : splitNames ", alice ,,\u2003bob jones\t, \u00a0" = ["alice", "bob jones"] := by decide

theorem isName_of_mem_splitNames (mem : name ∈ splitNames text) : IsName name := by
  obtain ⟨items, -, eq⟩ := splitNames_eq_iff.mp (rfl : splitNames text = _)
  rw [← eq] at mem
  obtain ⟨item, -, named⟩ := List.mem_filterMap.mp mem
  exact NameItem.isName_of_name?_eq_some named

theorem lists_intercalate (clean : ∀ name ∈ names, IsName name) :
    Lists (",".intercalate names) names := by
  -- Each name is an item without blanks.
  suffices items : ∃ items : List NameItem,
      items.map NameItem.text = names ∧ items.filterMap NameItem.name? = names by
    obtain ⟨items, texts, named⟩ := items
    exact ⟨items, congrArg _ texts, named⟩
  induction names with
  | nil => exact ⟨[], rfl, rfl⟩
  | cons name names ih =>
    obtain ⟨items, texts, named⟩ := ih fun name mem => clean name (List.mem_cons_of_mem _ mem)
    refine ⟨.named ⟨"", nofun⟩ name (clean name List.mem_cons_self) ⟨"", nofun⟩ :: items, ?_, ?_⟩
    · rw [List.map_cons, texts]
      simp [NameItem.text]
    · rw [List.filterMap_cons, named]
      rfl

/-- **Clean names come back** when they are joined by commas. -/
theorem splitNames_intercalate (clean : ∀ name ∈ names, IsName name) :
    splitNames (",".intercalate names) = names :=
  splitNames_eq_iff.mpr (lists_intercalate clean)

/-- Clean names that are joined by commas are the parts between the commas. -/
theorem split_intercalate_names (clean : ∀ name ∈ names, IsName name) (nonempty : names ≠ []) :
    (Text.split ',' (",".intercalate names).toList).map String.ofList = names := by
  have plain : ∀ part ∈ names.map String.toList, ',' ∉ part :=
    List.forall_mem_map.mpr fun name mem => (clean name mem).plain
  have joined : (",".intercalate names).toList = [','].intercalate (names.map String.toList) :=
    String.toList_intercalate
  rw [joined, Text.split_intercalate plain (by simpa using nonempty), List.map_map]
  simp

end Names

/-- **What the overrides send.** -/
structure OverrideLaws : Prop where
  fields : ∀ o : UpdateOverrides, FieldPerFlag o
  sent : ∀ (o : UpdateOverrides) (text : String), o.usernames = some text →
    o.toFields.requestBody.member? "usernames" = some (.ofStrings (splitNames text))
  clean : ∀ text, ∀ name ∈ splitNames text, IsName name
  /-- They are the names that the text is a list of: in their order, none left out and none added. -/
  listed : ∀ text names, splitNames text = names ↔ Lists text names
  /-- Clean names come back when they are joined by commas. -/
  joined : ∀ names : List String, (∀ name ∈ names, IsName name) →
    splitNames (",".intercalate names) = names
  rejoined : ∀ text, splitNames (",".intercalate (splitNames text)) = splitNames text
  /-- If there are any, they are the parts between the commas as they stand. -/
  parts : ∀ text, splitNames text ≠ [] →
    (Text.split ',' (",".intercalate (splitNames text)).toList).map String.ofList = splitNames text

/-- **What the overrides send**, for all of them. -/
theorem overrideLaws : OverrideLaws where
  fields := UpdateOverrides.fieldPerFlag
  sent _ _ := UpdateOverrides.member?_usernames
  clean _ _ := isName_of_mem_splitNames
  listed _ _ := splitNames_eq_iff
  joined _ := splitNames_intercalate
  rejoined _ := splitNames_intercalate fun _ => isName_of_mem_splitNames
  parts _ := split_intercalate_names fun _ => isName_of_mem_splitNames

end SessionDirectory
