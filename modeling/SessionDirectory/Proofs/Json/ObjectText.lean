import SessionDirectory.Proofs.Json.Split
import SessionDirectory.Proofs.Json.Tree

/-!
# The texts of objects

A text that is read as an object is made of the texts of its members: a name, a colon and a value
each, with commas between them and braces around them. The reader does the same inside of an object
as outside, until a value is done, so what it reads there are values first and the rest of the
object behind them.

## Main definitions

* `MemberTokens`: the tokens of an object behind the name and the colon of a member
* `WrittenMember`: the text of a member
* `IsObjectText`: a text consists of the texts of members

## Main results

* `Reader.exists_of_run_inside`: what is read inside of a container begins with a value
* `Raw.ofTokens?_object_iff`: the tokens of an object
* `Raw.parse_object_iff`: the texts that are read as an object are those made of its members
-/

set_option autoImplicit false

namespace SessionDirectory.Json

namespace Reader

variable {r r' : Reader} {outer around : List Frame} {t : Token} {ts : List Token} {v w : Raw}

/-- The reader inside of more containers. -/
def inside (outer : List Frame) : Reader → Reader
  | .value around => .value (around ++ outer)
  | .firstItem around => .firstItem (around ++ outer)
  | .firstName around => .firstName (around ++ outer)
  | .nextName around done => .nextName (around ++ outer) done
  | .colon around done name => .colon (around ++ outer) done name
  | .after around v => .after (around ++ outer) v

/-- The whole value has been read. -/
def Done (r : Reader) : Prop := ∃ v, r = .after [] v

theorem begin?_inside (outer around : List Frame) (t : Token) :
    begin? (around ++ outer) t = (begin? around t).map (inside outer) := by
  cases t <;> rfl

/-- A reader does the same inside of more containers, until it is done. -/
theorem step_inside (notDone : ¬ r.Done) (outer : List Frame) (t : Token) :
    (r.inside outer).step t = (r.step t).map (inside outer) := by
  cases r with
  | value around => exact begin?_inside outer around t
  | firstItem around =>
    have begins := begin?_inside outer (.items [] :: around) t
    cases t with
    | closeArray => rfl
    | _ => exact begins
  | firstName around => cases t <;> rfl
  | nextName around done => cases t <;> rfl
  | colon around done name => cases t <;> rfl
  | after around v =>
    match around with
    | [] => exact absurd ⟨v, rfl⟩ notDone
    | .items done :: around => cases t <;> rfl
    | .members done name :: around => cases t <;> rfl

theorem run_cons (r : Reader) (t : Token) (ts : List Token) :
    r.run (t :: ts) = (r.step t).bind (·.run ts) := List.foldlM_cons

theorem run_append (r : Reader) (ts ts' : List Token) :
    r.run (ts ++ ts') = (r.run ts).bind (·.run ts') := List.foldlM_append

theorem exists_step_of_run (run : r.run (t :: ts) = some r') :
    ∃ next, r.step t = some next ∧ next.run ts = some r' := by
  rw [run_cons] at run
  exact Option.bind_eq_some_iff.mp run

theorem step_done (v : Raw) (t : Token) : step (.after [] v) t = none := by
  cases t <;> rfl

theorem run_inside (run : r.run ts = some r') (outer : List Frame) :
    (r.inside outer).run ts = some (r'.inside outer) := by
  induction ts generalizing r with
  | nil =>
    obtain rfl : r = r' := Option.some.inj run
    rfl
  | cons t ts ih =>
    obtain ⟨next, step, run⟩ := exists_step_of_run run
    have notDone : ¬ r.Done := by
      rintro ⟨v, rfl⟩
      rw [step_done] at step
      cases step
    rw [run_cons, step_inside notDone, step]
    exact ih run

/-- **What is read inside of containers is a value first**, and then the rest of them. -/
theorem exists_of_run_inside {frame : Frame}
    (run : (r.inside (frame :: outer)).run ts = some (.after [] v)) :
    ∃ ts₁ ts₂ w, ts = ts₁ ++ ts₂ ∧ r.run ts₁ = some (.after [] w) ∧
      Reader.run (.after (frame :: outer) w) ts₂ = some (.after [] v) := by
  induction ts generalizing r with
  | nil =>
    have same := Option.some.inj run
    cases r <;> simp [inside] at same
  | cons t ts ih =>
    by_cases done : r.Done
    · obtain ⟨w, rfl⟩ := done
      exact ⟨[], t :: ts, w, rfl, rfl, run⟩
    · rw [run_cons, step_inside done] at run
      obtain ⟨_, moved, run⟩ := Option.bind_eq_some_iff.mp run
      obtain ⟨next, step, rfl⟩ := Option.map_eq_some_iff.mp moved
      obtain ⟨ts₁, ts₂, w, rfl, first, rest⟩ := ih run
      refine ⟨t :: ts₁, ts₂, w, rfl, ?_, rest⟩
      rw [run_cons, step]
      exact first

end Reader

/-- A tree is read if its tokens end with it. -/
theorem Raw.ofTokens?_eq_some_iff {ts : List Token} {r : Raw} :
    ofTokens? ts = some r ↔ (Reader.value []).run ts = some (.after [] r) := by
  rw [ofTokens?, Option.bind_eq_some_iff]
  constructor
  · rintro ⟨reader, run, ends⟩
    unfold Reader.finish? at ends
    split at ends
    · cases ends
      exact run
    · cases ends
  · intro run
    exact ⟨_, run, rfl⟩

/-! ## Arrays and objects -/

namespace Reader

/-- A value is read inside of containers like alone. -/
theorem run_value {ts : List Token} {r : Raw} (value : Raw.ofTokens? ts = some r)
    (around : List Frame) : Reader.run (.value around) ts = some (.after around r) :=
  run_inside (Raw.ofTokens?_eq_some_iff.mp value) around

theorem run_done {v w : Raw} {ts : List Token}
    (run : Reader.run (.after [] w) ts = some (.after [] v)) : ts = [] ∧ v = w := by
  cases ts with
  | nil => cases run; exact ⟨rfl, rfl⟩
  | cons t ts =>
    rw [Reader.run_cons, step_done] at run
    cases run

/-- What comes out of an unfinished array is an array. -/
theorem exists_array_of_run {ts : List Token} {done : List Raw} {v : Raw}
    (run : Reader.run (.value [.items done]) ts = some (.after [] v)) :
    ∃ items, v = .array items := by
  induction length : ts.length using Nat.strongRecOn generalizing ts done with
  | ind n ih =>
    -- An item comes first. Behind its comma, fewer tokens are left.
    have run : Reader.run ((Reader.value []).inside [.items done]) ts = _ := run
    obtain ⟨ts₁, ts₂, w, rfl, -, rest⟩ := exists_of_run_inside run
    cases ts₂ with
    | nil => cases rest
    | cons t ts₂ =>
      obtain ⟨r, step, rest⟩ := exists_step_of_run rest
      cases t with
      | comma =>
        cases step
        exact ih ts₂.length (by rw [← length]; simp; omega) rest rfl
      | closeArray =>
        cases step
        exact ⟨_, (run_done rest).2⟩
      | _ => cases step

theorem exists_array_of_run_firstItem {ts : List Token} {v : Raw}
    (run : Reader.run (.firstItem []) ts = some (.after [] v)) : ∃ items, v = .array items := by
  cases ts with
  | nil => cases run
  | cons t ts =>
    cases t with
    | closeArray => exact ⟨_, (run_done run).2⟩
    | _ =>
      -- What does not close the array begins its first item.
      have run : Reader.run (.value [.items []]) (_ :: ts) = _ := run
      exact exists_array_of_run run

end Reader

/-- The tokens behind the name and the colon of a member, up to the closing brace. -/
inductive MemberTokens : Option String → List Token → List (Option String × Raw) → Prop
  | last {name : Option String} {ts : List Token} {r : Raw} (value : Raw.ofTokens? ts = some r) :
      MemberTokens name (ts ++ [.closeObject]) [(name, r)]
  | more {name next : Option String} {ts rest : List Token} {r : Raw}
      {members : List (Option String × Raw)} (value : Raw.ofTokens? ts = some r)
      (later : MemberTokens next rest members) :
      MemberTokens name (ts ++ .comma :: .string next :: .colon :: rest) ((name, r) :: members)

namespace Reader

/-- Only a name and a colon go on with an object after a comma. -/
theorem exists_of_run_nextName {around : List Frame} {done : List (Option String × Raw)}
    {ts : List Token} {v : Raw} (run : Reader.run (.nextName around done) ts = some (.after [] v)) :
    ∃ name rest, ts = .string name :: .colon :: rest ∧
      Reader.run (.value (.members done name :: around)) rest = some (.after [] v) := by
  cases ts with
  | nil => cases run
  | cons t ts =>
    obtain ⟨r, step, run⟩ := exists_step_of_run run
    cases t with
    | string name =>
      cases step
      cases ts with
      | nil => cases run
      | cons t ts =>
        obtain ⟨r, step, run⟩ := exists_step_of_run run
        cases t with
        | colon =>
          cases step
          exact ⟨name, ts, rfl, run⟩
        | _ => cases step
    | _ => cases step

/-- Behind the name of a member come the members of an object. -/
theorem exists_memberTokens_of_run {ts : List Token} {done : List (Option String × Raw)}
    {name : Option String} {v : Raw}
    (run : Reader.run (.value [.members done name]) ts = some (.after [] v)) :
    ∃ members, MemberTokens name ts members ∧ v = .object (done.reverse ++ members) := by
  induction length : ts.length using Nat.strongRecOn generalizing ts done name with
  | ind n ih =>
    -- The value comes first. Behind the comma and the next name, fewer tokens are left.
    have run : Reader.run ((Reader.value []).inside [.members done name]) ts = _ := run
    obtain ⟨ts₁, ts₂, w, rfl, first, rest⟩ := exists_of_run_inside run
    have value := Raw.ofTokens?_eq_some_iff.mpr first
    cases ts₂ with
    | nil => cases rest
    | cons t ts₂ =>
      obtain ⟨r, step, rest⟩ := exists_step_of_run rest
      cases t with
      | comma =>
        cases step
        obtain ⟨next, ts₃, rfl, rest⟩ := exists_of_run_nextName rest
        obtain ⟨members, later, rfl⟩ := ih ts₃.length (by rw [← length]; simp; omega) rest rfl
        exact ⟨_, .more value later, by simp⟩
      | closeObject =>
        cases step
        obtain ⟨rfl, rfl⟩ := run_done rest
        exact ⟨_, .last value, by simp⟩
      | _ => cases step

/-- The members of an object are read behind the name of the first one. -/
theorem run_memberTokens {name : Option String} {ts : List Token}
    {members : List (Option String × Raw)} (tokens : MemberTokens name ts members)
    (done : List (Option String × Raw)) :
    Reader.run (.value [.members done name]) ts =
      some (.after [] (.object (done.reverse ++ members))) := by
  induction tokens generalizing done with
  | @last name ts r value =>
    rw [run_append, run_value value, ← List.reverse_cons]
    rfl
  | @more name next ts rest r members value later ih =>
    rw [run_append, run_value value]
    show Reader.run (.value [.members ((name, r) :: done) next]) rest = _
    rw [ih, List.reverse_cons, List.append_assoc]
    rfl

end Reader

open Reader in
/-- **The tokens of an object** are those of its members between braces. -/
theorem Raw.ofTokens?_object_iff {ts : List Token} {members : List (Option String × Raw)} :
    ofTokens? ts = some (.object members) ↔
      (members = [] ∧ ts = [.openObject, .closeObject]) ∨
        ∃ name rest, MemberTokens name rest members ∧
          ts = .openObject :: .string name :: .colon :: rest := by
  rw [ofTokens?_eq_some_iff]
  constructor
  · intro run
    cases ts with
    | nil => cases run
    | cons t ts =>
      obtain ⟨r, step, run⟩ := exists_step_of_run run
      cases t with
      | openObject =>
        cases step
        cases ts with
        | nil => cases run
        | cons t ts =>
          obtain ⟨r, step, run'⟩ := exists_step_of_run run
          cases t with
          | closeObject =>
            cases step
            obtain ⟨rfl, same⟩ := run_done run'
            cases same
            exact .inl ⟨rfl, rfl⟩
          | string name =>
            -- From here on the first name is read like a later one.
            have run : Reader.run (.nextName [] []) (.string name :: ts) = _ := run
            obtain ⟨name, rest, eq, run⟩ := exists_of_run_nextName run
            obtain ⟨members', tokens, same⟩ := exists_memberTokens_of_run run
            cases same
            exact .inr ⟨name, rest, tokens, by rw [eq]⟩
          | _ => cases step
      | openArray =>
        cases step
        obtain ⟨items, same⟩ := exists_array_of_run_firstItem run
        cases same
      | null | bool | number | string =>
        cases step
        cases (run_done run).2
      | _ => cases step
  · rintro (⟨rfl, rfl⟩ | ⟨name, rest, tokens, rfl⟩)
    · rfl
    · show Reader.run (.value [.members [] name]) rest = _
      exact run_memberTokens tokens []

/-! ## Texts -/

/-- The text of a member of an object: what stands in front of its colon and behind it, with the
blanks around the name and the value. -/
structure WrittenMember where
  nameText : List Char
  valueText : List Char
  name : Option String
  value : Raw
  scans : Token.scan nameText = some [.string name]
  parses : (Token.scan valueText).bind Raw.ofTokens? = some value

namespace WrittenMember

/-- The characters of a member. -/
def text (m : WrittenMember) : List Char := m.nameText ++ ':' :: m.valueText

/-- What a member is read as. -/
def member (m : WrittenMember) : Option String × Raw := (m.name, m.value)

/-- The characters of members with commas between them. -/
def joined : List WrittenMember → List Char
  | [] => []
  | [m] => m.text
  | m :: next :: ms => m.text ++ ',' :: joined (next :: ms)

end WrittenMember

open WrittenMember (joined)

/-- A text consists of the texts of members: they stand between braces with blanks around. -/
def IsObjectText (s : String) (ms : List WrittenMember) : Prop :=
  ∃ before inner after : List Char,
    (∀ c ∈ before, c ∈ blanks) ∧ (∀ c ∈ inner, c ∈ blanks) ∧ (∀ c ∈ after, c ∈ blanks) ∧
      s.toList = before ++ '\x7b' :: (inner ++ joined ms ++ '\x7d' :: after)

/-- The text of members is what is left of a text in front of its closing brace. -/
theorem MemberTokens.exists_joined {name : Option String} {ts : List Token}
    {members : List (Option String × Raw)} (tokens : MemberTokens name ts members)
    {nameText rest : List Char} (named : Token.scan nameText = some [.string name])
    (scanned : Token.scan rest = some ts) :
    ∃ m ms after, (∀ c ∈ after, c ∈ blanks) ∧
      WrittenMember.member m :: ms.map (·.member) = members ∧
      nameText ++ ':' :: rest = joined (m :: ms) ++ '\x7d' :: after := by
  induction tokens generalizing nameText rest with
  | @last name ts r value =>
    obtain ⟨valueText, after, rfl, scans, blank⟩ := Token.exists_of_scan_eq_append rfl scanned
    have parses : (Token.scan valueText).bind Raw.ofTokens? = some r := by
      rw [scans]
      exact value
    refine ⟨⟨nameText, valueText, name, r, named, parses⟩, [], after,
      Token.scan_eq_nil_iff.mp blank, rfl, ?_⟩
    simp [joined, WrittenMember.text]
  | @more name next ts ts' r members value later ih =>
    obtain ⟨valueText, rest, rfl, scans, scanned⟩ := Token.exists_of_scan_eq_append rfl scanned
    have parses : (Token.scan valueText).bind Raw.ofTokens? = some r := by
      rw [scans]
      exact value
    -- Behind the comma comes the name of the next member up to its colon.
    have scanned : Token.scan rest = some ([.string next] ++ .colon :: ts') := scanned
    obtain ⟨nextText, rest, rfl, named', scanned⟩ := Token.exists_of_scan_eq_append rfl scanned
    obtain ⟨m, ms, after, blank, rfl, same⟩ := ih named' scanned
    refine ⟨⟨nameText, valueText, name, r, named, parses⟩, m :: ms, after, blank, rfl, ?_⟩
    simp [joined, WrittenMember.text, same]

/-- The members of a text have the tokens of its object. -/
theorem exists_memberTokens (m : WrittenMember) (ms : List WrittenMember) {after : List Char}
    (blank : ∀ c ∈ after, c ∈ blanks) :
    ∃ ts, MemberTokens m.name ts (m.member :: ms.map (·.member)) ∧
      Token.scan (joined (m :: ms) ++ '\x7d' :: after) =
        some (.string m.name :: .colon :: ts) := by
  have ends := Token.scan_eq_nil_iff.mpr blank
  induction ms generalizing m with
  | nil =>
    obtain ⟨ts, scans, value⟩ := Option.bind_eq_some_iff.mp m.parses
    have values := Token.scan_append_mark scans (t := .closeObject) rfl ends
    have whole := Token.scan_append_mark m.scans (t := .colon) rfl values
    refine ⟨_, .last value, ?_⟩
    simpa [joined, WrittenMember.text] using whole
  | cons next ms ih =>
    obtain ⟨ts, scans, value⟩ := Option.bind_eq_some_iff.mp m.parses
    obtain ⟨ts', later, rest⟩ := ih next
    have values := Token.scan_append_mark scans (t := .comma) rfl rest
    have whole := Token.scan_append_mark m.scans (t := .colon) rfl values
    refine ⟨_, .more value later, ?_⟩
    simpa [joined, WrittenMember.text] using whole

namespace Raw

variable {s : String} {r : Raw} {members : List (Option String × Raw)}

theorem parse_eq_ok_iff : parse s = .ok r ↔ ∃ ts, Token.scan s.toList = some ts ∧
    ofTokens? ts = some r := by
  rw [← Option.bind_eq_some_iff, parse]
  show _ ↔ parse? s = _
  split
  next whole => simp [whole]
  next whole => simp [whole]

/-- **The texts that are read as an object** are those made of its members. -/
theorem parse_object_iff : parse s = .ok (.object members) ↔
    ∃ ms, IsObjectText s ms ∧ ms.map (·.member) = members := by
  rw [parse_eq_ok_iff]
  constructor
  · rintro ⟨ts, scanned, tree⟩
    obtain ⟨rfl, rfl⟩ | ⟨name, ts, tokens, rfl⟩ := ofTokens?_object_iff.mp tree
    · -- There are blanks around the two braces and between them.
      obtain ⟨before, rest, whole, blank₁, scanned⟩ := Token.exists_of_scan_eq_cons rfl scanned
      obtain ⟨inner, after, rfl, blank₂, scanned⟩ := Token.exists_of_scan_eq_cons rfl scanned
      have blank₃ := Token.scan_eq_nil_iff.mp scanned
      refine ⟨[], ⟨before, inner, after, blank₁, blank₂, blank₃, ?_⟩, rfl⟩
      rw [whole, joined, List.append_nil]
    · obtain ⟨before, rest, whole, blank, scanned⟩ := Token.exists_of_scan_eq_cons rfl scanned
      have scanned : Token.scan rest = some ([.string name] ++ .colon :: ts) := scanned
      obtain ⟨nameText, rest, rfl, named, scanned⟩ := Token.exists_of_scan_eq_append rfl scanned
      obtain ⟨m, ms, after, blank', rfl, same⟩ := tokens.exists_joined named scanned
      refine ⟨m :: ms, ⟨before, [], after, blank, List.forall_mem_nil _, blank', ?_⟩, rfl⟩
      rw [whole, same, List.nil_append]
  · rintro ⟨ms, ⟨before, inner, after, blank₁, blank₂, blank₃, whole⟩, rfl⟩
    have opens := Token.scan_eq_nil_iff.mpr blank₁
    cases ms with
    | nil =>
      have inside := Token.scan_append_mark (Token.scan_eq_nil_iff.mpr blank₂)
        (t := .closeObject) rfl (Token.scan_eq_nil_iff.mpr blank₃)
      have scanned := Token.scan_append_mark opens (t := .openObject) rfl inside
      refine ⟨_, ?_, ofTokens?_object_iff.mpr (.inl ⟨rfl, rfl⟩)⟩
      rw [whole, joined, List.append_nil, scanned]
      rfl
    | cons m ms =>
      obtain ⟨ts, tokens, inside⟩ := exists_memberTokens m ms blank₃
      rw [← Token.scan_blanks_append blank₂, ← List.append_assoc] at inside
      have scanned := Token.scan_append_mark opens (t := .openObject) rfl inside
      refine ⟨_, ?_, ofTokens?_object_iff.mpr (.inr ⟨m.name, ts, tokens, rfl⟩)⟩
      rw [whole, scanned]
      rfl

end Raw

end SessionDirectory.Json
