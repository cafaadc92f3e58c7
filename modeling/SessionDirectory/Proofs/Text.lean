import Mathlib.Data.List.DropRight
import SessionDirectory.Text.Blank

/-!
# Parts of a text and trimmed texts

Splitting a text at a separator and joining parts with it undo each other. What trimming leaves of a
text is what stands between blanks and has none at its own ends; no other part of the text is such.

## Main definitions

* `Text.AllBlank`: a text of blanks only
* `Text.Tight`: a text without blanks at its ends

## Main results

* `Text.intercalate_split`, `Text.split_intercalate`: parts are joined, and joined parts are split
* `Text.not_mem_of_mem_split`: no part has the separator
* `Text.tight_trim`, `Text.exists_eq_append_trim`: what is trimmed, and what is left
* `Text.trim_append`, `Text.trim_eq_nil_iff`: what is left of a tight text between blanks, and when
  nothing is
-/

set_option autoImplicit false

namespace SessionDirectory.Text

variable {separator : Char} {cs before after part : List Char} {parts : List (List Char)}

/-! ## Parts -/

theorem split_eq_splitOn (separator : Char) (cs : List Char) :
    split separator cs = cs.splitOn separator := by
  induction cs with
  | nil => rw [List.splitOn_nil, split]
  | cons c cs ih =>
    rw [split, List.splitOn_cons_eq_if_modifyHead, ih]
    by_cases mark : c = separator
    · rw [if_pos mark, if_pos (beq_iff_eq.mpr mark)]
    · rw [if_neg mark, if_neg (by simpa using mark)]
      obtain ⟨first, rest, eq⟩ := List.exists_cons_of_ne_nil (List.splitOn_ne_nil separator cs)
      rw [eq, List.modifyHead_cons]

/-- **A text is its parts, joined.** -/
theorem intercalate_split (separator : Char) (cs : List Char) :
    [separator].intercalate (split separator cs) = cs := by
  rw [split_eq_splitOn, List.intercalate_splitOn]

/-- **Joined parts are split again.** -/
theorem split_intercalate (plain : ∀ part ∈ parts, separator ∉ part) (nonempty : parts ≠ []) :
    split separator ([separator].intercalate parts) = parts := by
  rw [split_eq_splitOn, List.splitOn_intercalate separator plain nonempty]

/-- The characters of joined parts are the separator and those of the parts. -/
theorem mem_intercalate {c : Char} (mem : c ∈ [separator].intercalate parts) :
    c = separator ∨ ∃ part ∈ parts, c ∈ part := by
  induction parts with
  | nil => simp at mem
  | cons first rest ih =>
    cases rest with
    | nil =>
      rw [List.intercalate_singleton] at mem
      exact .inr ⟨first, List.mem_cons_self, mem⟩
    | cons second rest =>
      rw [List.intercalate_cons_cons, List.append_assoc, List.mem_append, List.mem_append] at mem
      rcases mem with mem | mem | mem
      · exact .inr ⟨first, List.mem_cons_self, mem⟩
      · exact .inl (List.mem_singleton.mp mem)
      · obtain same | ⟨part, inRest, mem⟩ := ih mem
        · exact .inl same
        · exact .inr ⟨part, List.mem_cons_of_mem _ inRest, mem⟩

theorem not_mem_of_mem_split (mem : part ∈ split separator cs) : separator ∉ part := by
  induction cs generalizing part with
  | nil =>
    rw [List.mem_singleton.mp mem]
    exact List.not_mem_nil
  | cons c cs ih =>
    rw [split] at mem
    split at mem
    next =>
      rcases List.mem_cons.mp mem with rfl | mem
      · exact List.not_mem_nil
      · exact ih mem
    next notMark =>
      split at mem
      next first rest eq =>
        rw [eq] at ih
        rcases List.mem_cons.mp mem with rfl | mem
        · rw [List.mem_cons, not_or]
          exact ⟨Ne.symm notMark, ih List.mem_cons_self⟩
        · exact ih (List.mem_cons_of_mem _ mem)
      next =>
        rw [List.mem_singleton.mp mem, List.mem_singleton]
        exact Ne.symm notMark

/-! ## Blanks at the ends -/

/-- Blanks only. -/
def AllBlank (cs : List Char) : Prop := ∀ c ∈ cs, isBlank c = true

/-- **No blank at either end.** -/
structure Tight (cs : List Char) : Prop where
  start : ∀ c, cs.head? = some c → isBlank c = false
  stop : ∀ c, cs.getLast? = some c → isBlank c = false

theorem trimStart_append (blank : AllBlank before) (cs : List Char) :
    trimStart (before ++ cs) = trimStart cs :=
  List.dropWhile_append_of_pos blank

theorem trimEnd_eq_self (tight : Tight cs) : trimEnd cs = cs :=
  List.rdropWhile_eq_self_iff.mpr fun nonempty blank => by
    rw [tight.stop _ (List.getLast?_eq_some_getLast nonempty)] at blank
    cases blank

/-- **A tight text between blanks is what trimming leaves.** -/
theorem trim_append (tight : Tight cs) (nonempty : cs ≠ []) (blankBefore : AllBlank before)
    (blankAfter : AllBlank after) : trim (before ++ cs ++ after) = cs := by
  obtain ⟨c, rest, rfl⟩ := List.exists_cons_of_ne_nil nonempty
  have visible : ¬ isBlank c = true := by simp [tight.start c rfl]
  calc trim (before ++ c :: rest ++ after)
    _ = trimEnd (trimStart (c :: rest ++ after)) := by
      rw [trim, List.append_assoc, trimStart_append blankBefore]
    _ = trimEnd (c :: rest ++ after) := by
      rw [trimStart, List.cons_append, List.dropWhile_cons_of_neg visible]
    _ = c :: rest := by
      rw [trimEnd_append blankAfter, trimEnd_eq_self tight]

/-- **What trimming leaves is tight.** -/
theorem tight_trim (cs : List Char) : Tight (trim cs) where
  start c first := by
    -- What is left starts as the text does behind the blanks at its start.
    obtain ⟨blanks, eq⟩ := List.rdropWhile_prefix isBlank (trimStart cs)
    have head : (cs.dropWhile isBlank).head? = some c := by
      show (trimStart cs).head? = some c
      rw [← eq]
      exact List.head?_append.trans (congrArg (·.or blanks.head?) first)
    have visible := List.head?_dropWhile_not isBlank cs
    rw [head] at visible
    exact visible
  stop c last := by
    have nonempty : trim cs ≠ [] := List.ne_nil_of_mem (List.mem_of_getLast? last)
    rw [List.getLast?_eq_some_getLast nonempty] at last
    cases last
    exact Bool.eq_false_iff.mpr (List.rdropWhile_last_not isBlank (trimStart cs) nonempty)

/-- **A text is what trimming leaves of it, between blanks.** -/
theorem exists_eq_append_trim (cs : List Char) :
    ∃ before after, AllBlank before ∧ AllBlank after ∧ before ++ trim cs ++ after = cs := by
  refine ⟨cs.takeWhile isBlank, (trimStart cs).rtakeWhile isBlank,
    fun _ => List.mem_takeWhile_imp, fun _ => List.mem_rtakeWhile_imp, ?_⟩
  calc cs.takeWhile isBlank ++ trim cs ++ (trimStart cs).rtakeWhile isBlank
    _ = cs.takeWhile isBlank ++ trimStart cs := by
      rw [List.append_assoc]
      exact congrArg _ List.rdropWhile_append_rtakeWhile
    _ = cs := List.takeWhile_append_dropWhile

/-- Nothing is left of blanks, and only of them. -/
theorem trim_eq_nil_iff : trim cs = [] ↔ AllBlank cs := by
  constructor
  · intro nothing
    obtain ⟨before, after, blankBefore, blankAfter, eq⟩ := exists_eq_append_trim cs
    rw [nothing, List.append_nil] at eq
    rw [← eq]
    exact List.forall_mem_append.mpr ⟨blankBefore, blankAfter⟩
  · intro blank
    rw [trim, trimStart, List.dropWhile_eq_nil_iff.mpr blank]
    rfl

end SessionDirectory.Text
