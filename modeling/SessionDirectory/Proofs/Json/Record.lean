import SessionDirectory.Json.Read

/-!
# Reading texts and records

What a text is read as does not change if it is written as a line. A record that is written as an
object is read by the names of its members: records of different fields have the fields in common
that have the same names.

## Main results

* `Raw.parse_append_newline`: the line of a text has the tree of the text
* `Raw.record_object_eq_ok_iff`: when an object has the fields of a record, and which
* `Raw.record_of_record`: the fields of one record that another one has
-/

set_option autoImplicit false

namespace SessionDirectory.Json

/-! ## Lines -/

/-- Where a text may end, a line may end. -/
theorem Scanner.exists_step_newline {s : Scanner} {ts : List Token} (ends : s.finish? = some ts) :
    ∃ s', s.step '\n' = some s' ∧ s'.finish? = some ts := by
  obtain ⟨tokens, mode⟩ := s
  cases mode with
  | between => exact ⟨_, rfl, ends⟩
  | numeral part digits =>
    -- No numeral goes on over the end of a line, so it ends as it does at the end of the text.
    have stops : digits.extend? part '\n' = none := by cases part <;> rfl
    obtain ⟨s', whole, same⟩ := Option.map_eq_some_iff.mp ends
    refine ⟨⟨s'.tokens, .between⟩, ?_, ?_⟩
    · simp only [step, stops, whole]
      rfl
    · rw [← same]
      rfl
  | word | text | escape | hex => cases ends

namespace Raw

variable {s : String} {r : Raw} {names names' : List String} {name : String}
  {members : List (Option String × Raw)} {get : String → Option Raw}

/-- **The line of a text has the tree of the text.** -/
theorem parse_append_newline (parsed : parse s = .ok r) : parse (s ++ "\n") = .ok r := by
  have whole : parse? s = some r := by
    unfold parse at parsed
    split at parsed <;> cases parsed
    assumption
  obtain ⟨ts, scanned, tree⟩ := Option.bind_eq_some_iff.mp whole
  obtain ⟨last, run, ends⟩ := Option.bind_eq_some_iff.mp scanned
  obtain ⟨last', step, ends'⟩ := Scanner.exists_step_newline ends
  have run' : Scanner.start.run (s ++ "\n").toList = some last' := by
    rw [String.toList_append, Scanner.run, List.foldlM_append]
    show (Scanner.start.run s.toList).bind _ = _
    rw [run]
    show (last.step '\n').bind _ = _
    rw [step]
    rfl
  have scanned' : Token.scan (s ++ "\n").toList = some ts := by
    rw [Token.scan, run', Option.bind_some, ends']
  rw [parse, parse?, scanned', Option.bind_some, tree]

/-! ## Records -/

theorem lookup_eq_nil_iff : lookup members name = [] ↔ ∀ m ∈ members, m.1 ≠ some name := by
  simp [lookup, List.filterMap_eq_nil_iff]

/-- **An object has the fields of a record** if none of them is repeated and all of its names have
characters. -/
theorem record_object_eq_ok_iff : record names (.object members) = .ok get ↔
    (∀ name ∈ names, (lookup members name).length ≤ 1) ∧ (∀ m ∈ members, m.1.isSome) ∧
      get = fun name => (lookup members name).head? := by
  rw [record]
  split
  next name repeated =>
    -- The object has the repeated name more than once.
    have twice : 1 < (lookup members name).length := by simpa using List.find?_some repeated
    refine iff_of_false (fun read => nomatch read) fun h => ?_
    exact absurd (h.1 name (List.mem_of_find?_eq_some repeated)) (Nat.not_le.mpr twice)
  next none =>
    have once : ∀ name ∈ names, (lookup members name).length ≤ 1 := by
      simpa using List.find?_eq_none.mp none
    split
    next known =>
      have known := List.all_eq_true.mp known
      rw [and_iff_right once, and_iff_right known, Except.ok.injEq]
      exact eq_comm
    next unknown =>
      refine iff_of_false (fun read => nomatch read) fun h => ?_
      exact unknown (List.all_eq_true.mpr h.2.1)

/-- **The fields of one record are those of another** if the others of them are not there. -/
theorem record_of_record (fields : record names (.object members) = .ok get)
    (others : ∀ name ∈ names', name ∈ names ∨ ∀ m ∈ members, m.1 ≠ some name) :
    record names' (.object members) = .ok get := by
  obtain ⟨once, known, rfl⟩ := record_object_eq_ok_iff.mp fields
  refine record_object_eq_ok_iff.mpr ⟨fun name mem => ?_, known, rfl⟩
  rcases others name mem with shared | absent
  · exact once name shared
  · simp [lookup_eq_nil_iff.mpr absent]

end Raw

end SessionDirectory.Json
