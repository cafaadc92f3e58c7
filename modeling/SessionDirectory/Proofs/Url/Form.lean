import SessionDirectory.Proofs.Url.Percent
import SessionDirectory.Url.Form

/-!
# Form-encoded pairs read back

A name or a value that is encoded holds neither `&` nor `=`, so the marks of a query are those that
stand between its pairs and inside of them. A `+` of the text is encoded too: every `+` that is left
stands for a space.

## Main results

* `Form.plain_or_mark_of_mem_encode`: the characters of encoded names and values
* `Form.decode?_encode`: an encoded name or value is read back
* `Form.decodePairs_encodePairs`: any list of pairs is read back from its query
-/

set_option autoImplicit false

namespace SessionDirectory.Form

/-! ## Names and values -/

theorem staysPlain_of_hexValue? {c : Char} (digit : (Percent.hexValue? c).isSome) :
    staysPlain c = true := by
  have alphanumeric : c.isAlphanum = true := by
    simp only [Percent.hexValue?, Char.le_def] at digit
    refine (Bool.or_eq_true _ _).mpr ?_
    split at digit
    next decimal =>
      exact .inr ((Bool.and_eq_true _ _).mpr ⟨decide_eq_true decimal.1, decide_eq_true decimal.2⟩)
    next =>
      refine .inl ((Bool.or_eq_true _ _).mpr ?_)
      split at digit
      next upper =>
        have le : c.val ≤ 'Z'.val := UInt32.le_trans upper.2 (by decide)
        exact .inl (decide_eq_true ⟨upper.1, le⟩)
      next =>
        split at digit
        next lower =>
          have le : c.val ≤ 'z'.val := UInt32.le_trans lower.2 (by decide)
          exact .inr ((Bool.and_eq_true _ _).mpr ⟨decide_eq_true lower.1, decide_eq_true le⟩)
        next => cases digit
  rw [staysPlain, alphanumeric]
  rfl

theorem plain_or_mark_of_mem_encode {s : String} {c : Char} (mem : c ∈ encode s) :
    staysPlain c = true ∨ c = '+' ∨ c = '%' := by
  obtain ⟨c', -, part⟩ := List.mem_flatMap.mp mem
  split at part
  next => exact .inr (.inl (List.mem_singleton.mp part))
  next =>
    split at part
    next plain =>
      rw [List.mem_singleton.mp part]
      exact .inl plain
    next =>
      obtain ⟨b, -, part⟩ := List.mem_flatMap.mp part
      rcases Percent.isSome_hexValue?_of_mem_encodeByte part with mark | digit
      · exact .inr (.inr mark)
      · exact .inl (staysPlain_of_hexValue? digit)

/-- The marks between names, values and pairs stand in none of them. -/
theorem mark_not_mem_encode (s : String) {mark : Char} (isMark : mark = '&' ∨ mark = '=') :
    mark ∉ encode s := by
  intro mem
  rcases isMark with rfl | rfl <;>
    exact absurd (plain_or_mark_of_mem_encode mem) (by decide)

/-- A `+` of an encoded text is a space, and all else is what it is. -/
def readPlus (c : Char) : Char := if c = '+' then ' ' else c

theorem map_readPlus_eq_self {cs : List Char} (plain : '+' ∉ cs) : cs.map readPlus = cs := by
  have each : ∀ c ∈ cs, readPlus c = id c := by
    intro c mem
    refine if_neg ?_
    rintro rfl
    exact plain mem
  rw [List.map_congr_left each, List.map_id]

theorem plus_not_mem_encodeChar (c : Char) : '+' ∉ Percent.encodeChar c := by
  intro mem
  obtain ⟨b, -, part⟩ := List.mem_flatMap.mp mem
  exact absurd (Percent.isSome_hexValue?_of_mem_encodeByte part) (by decide)

/-- **An encoded name or value is read back.** -/
theorem decode?_encode (s : String) : decode? (encode s) = some s := by
  rw [decode?, Percent.decodeText?_eq_some_iff, encode]
  show Percent.decode (List.map readPlus _) = _
  -- Only a text that starts with `%` may start with an escape.
  have start : ∀ c rest, c ≠ '%' → Percent.decode (c :: rest) =
      String.utf8EncodeChar c ++ Percent.decode rest := by
    intro c rest notMark
    refine Percent.decode_cons ?_
    rintro ⟨high, low, rest', b, eq, -⟩
    exact notMark (List.cons.inj eq).1
  induction s.toList with
  | nil => rfl
  | cons c cs ih =>
    rw [List.flatMap_cons, List.map_append, Percent.utf8_cons, ← ih]
    by_cases space : c = ' '
    · rw [if_pos space, space]
      exact start ' ' _ (by decide)
    by_cases plain : staysPlain c = true
    · rw [if_neg space, if_pos plain, map_readPlus_eq_self]
      · refine start c _ ?_
        rintro rfl
        cases plain
      · rintro mem
        rw [← List.mem_singleton.mp mem] at plain
        cases plain
    · rw [if_neg space, if_neg plain, map_readPlus_eq_self (plus_not_mem_encodeChar c)]
      exact Percent.decode_encodeBytes _ _

/-! ## Pairs -/

theorem ampersand_not_mem_encodePair (pair : String × String) : '&' ∉ encodePair pair := by
  intro mem
  rcases List.mem_append.mp mem with name | value
  · exact mark_not_mem_encode _ (.inl rfl) name
  · exact mark_not_mem_encode _ (.inl rfl) ((List.mem_cons.mp value).resolve_left (by decide))

theorem splitPair_encodePair (pair : String × String) :
    splitPair (encodePair pair) = (encode pair.1, encode pair.2) := by
  have plain : ∀ c ∈ encode pair.1, decide (c ≠ '=') = true := by
    intro c mem
    rw [decide_eq_true_eq]
    rintro rfl
    exact mark_not_mem_encode _ (.inr rfl) mem
  rw [splitPair, encodePair, List.takeWhile_append_of_pos plain, List.dropWhile_append_of_pos plain]
  simp

theorem split_encodePairs {pairs : List (String × String)} (nonempty : pairs ≠ []) :
    Text.split '&' (encodePairs pairs) = pairs.map encodePair := by
  induction pairs with
  | nil => exact absurd rfl nonempty
  | cons pair rest ih =>
    cases rest with
    | nil => exact Text.split_of_not_mem (ampersand_not_mem_encodePair pair)
    | cons next rest =>
      rw [encodePairs, Text.split_append (ampersand_not_mem_encodePair pair),
        ih (List.cons_ne_nil _ _), List.map_cons (a := pair)]
      exact nofun

/-- **Any list of pairs is read back from its query.** -/
theorem decodePairs_encodePairs (pairs : List (String × String)) :
    decodePairs (encodePairs pairs) = some pairs := by
  cases pairs with
  | nil => rfl
  | cons pair rest =>
    -- Every pair has its mark, so none of the parts is empty.
    have whole : ((pair :: rest).map encodePair).filter (!·.isEmpty) =
        (pair :: rest).map encodePair := by
      rw [List.filter_eq_self]
      intro part mem
      obtain ⟨pair, -, rfl⟩ := List.mem_map.mp mem
      simp [encodePair]
    rw [decodePairs, split_encodePairs (List.cons_ne_nil _ _), whole]
    induction pair :: rest with
    | nil => rfl
    | cons pair rest ih =>
      rw [List.map_cons, List.mapM_cons, splitPair_encodePair, decode?_encode, decode?_encode, ih]
      rfl

end SessionDirectory.Form
