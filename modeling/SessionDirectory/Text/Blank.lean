/-!
# Blank characters

The characters with the Unicode property `White_Space`, and the trimming of them.

## Main definitions

* `Text.isBlank`: the property
* `Text.trimStart`, `Text.trimEnd`, `Text.trim`: a text without its leading or trailing blanks
* `Text.split`: the parts of a text between occurrences of a separator

## Main results

* `Text.isBlank_eq_false_of_isDigit`: no digit is blank
* `Text.trimEnd_append`, `Text.trimEnd_append_replicate`: what is trimmed from blanks behind a text
* `Text.split_of_not_mem`, `Text.split_append`: the parts of a text, from its start
-/

set_option autoImplicit false

namespace SessionDirectory.Text

/-- The ranges of code points with the property `White_Space`. -/
def blankRanges : List (Nat × Nat) :=
  [(0x09, 0x0d), (0x20, 0x20), (0x85, 0x85), (0xa0, 0xa0), (0x1680, 0x1680), (0x2000, 0x200a),
    (0x2028, 0x2029), (0x202f, 0x202f), (0x205f, 0x205f), (0x3000, 0x3000)]

/-- Whether a character is blank. -/
def isBlank (c : Char) : Bool := blankRanges.any fun r => r.1 ≤ c.toNat && c.toNat ≤ r.2

/-- No digit is blank. -/
theorem isBlank_eq_false_of_isDigit {c : Char} (digit : c.isDigit = true) : isBlank c = false := by
  have range : 48 ≤ c.toNat ∧ c.toNat ≤ 57 := Char.isDigit_iff_toNat.mp digit
  simp only [isBlank, blankRanges, List.any_cons, List.any_nil, Bool.or_eq_false_iff,
    Bool.and_eq_false_iff, decide_eq_false_iff_not, and_true]
  omega

/-- A text without its leading blanks. -/
def trimStart (cs : List Char) : List Char := cs.dropWhile isBlank

/-- A text without its trailing blanks. -/
def trimEnd (cs : List Char) : List Char := (cs.reverse.dropWhile isBlank).reverse

/-- A text without its leading and trailing blanks. -/
def trim (cs : List Char) : List Char := trimEnd (trimStart cs)

/-- The blanks behind a text are trimmed. -/
theorem trimEnd_append {after : List Char} (blank : ∀ c ∈ after, isBlank c = true)
    (cs : List Char) : trimEnd (cs ++ after) = trimEnd cs := by
  have reversed : ∀ c ∈ after.reverse, isBlank c = true := fun c mem =>
    blank c (List.mem_reverse.mp mem)
  rw [trimEnd, trimEnd, List.reverse_append, List.dropWhile_append_of_pos reversed]

/-- Nothing more is trimmed if the text ends with another character. -/
theorem trimEnd_append_replicate {front : List Char} {c : Char} (visible : isBlank c = false)
    (n : Nat) : trimEnd (front ++ [c] ++ List.replicate n ' ') = front ++ [c] := by
  have blank : ∀ d ∈ List.replicate n ' ', isBlank d = true := fun d mem => by
    rw [List.eq_of_mem_replicate mem]
    rfl
  rw [trimEnd_append blank, trimEnd, List.reverse_append, List.reverse_singleton,
    List.singleton_append, List.dropWhile_cons_of_neg]
  · simp
  · simp [visible]

/-- The parts of a text between the occurrences of a separator; one more than there are of them. -/
def split (separator : Char) : List Char → List (List Char)
  | [] => [[]]
  | c :: rest =>
    if c = separator then [] :: split separator rest
    else match split separator rest with
      | part :: parts => (c :: part) :: parts
      | [] => [[c]]

variable {separator : Char} {front : List Char}

/-- A text without separators is its only part. -/
theorem split_of_not_mem (plain : separator ∉ front) : split separator front = [front] := by
  induction front with
  | nil => rfl
  | cons c front ih =>
    rw [List.mem_cons, not_or] at plain
    rw [split, if_neg (Ne.symm plain.1), ih plain.2]

/-- What stands before the first separator is the first part. -/
theorem split_append (plain : separator ∉ front) (rest : List Char) :
    split separator (front ++ separator :: rest) = front :: split separator rest := by
  induction front with
  | nil => exact if_pos rfl
  | cons c front ih =>
    rw [List.mem_cons, not_or] at plain
    rw [List.cons_append, split, if_neg (Ne.symm plain.1), ih plain.2]

end SessionDirectory.Text
