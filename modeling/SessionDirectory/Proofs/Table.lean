import Mathlib.Algebra.GroupWithZero.Nat
import Mathlib.Data.List.Forall2
import SessionDirectory.Proofs.Decimal
import SessionDirectory.Table

/-!
# The table is aligned

Each column is as wide as its widest cell, header included, counted in characters. In every row but
the rule each cell starts where its column starts and is filled up with blanks to the width of the
column, and the columns stand apart by the same three characters. The blanks behind the last cell
are trimmed, and no more than that: an age never ends with a blank.

## Main definitions

* `Table.Fits`, `Table.Widest`: cells fit into columns, and some cell of each column is as wide
* `Table.offset`: where a column starts
* `Table.LaidOut`: the cells of a row stand in their columns
* `Table.Aligned`: the table of some sessions is aligned

## Main results

* `Table.widest_widths`: the widths of the table are those of the widest cells
* `Table.drop_intercalate`: where the parts of a row start
* `Table.Fits.laidOut_renderRow`: a row stands in the columns that its cells fit into
* `Table.aligned_of_ne_nil`: the table of any sessions is aligned
-/

set_option autoImplicit false

namespace SessionDirectory

open Calendar (Instant)

namespace Table

variable {ws : List Nat} {row : List String} {above : List (List String)} {i w : Nat}
  {cell : String}

/-! ## Widths -/

/-- A row has a cell for each column, and none is wider than its column. -/
structure Fits (ws : List Nat) (row : List String) : Prop where
  columns : row.length = ws.length
  within : ∀ (i w : Nat) (cell : String), ws[i]? = some w → row[i]? = some cell → cell.length ≤ w

/-- The widths of columns are those of their widest cells. -/
structure Widest (ws : List Nat) (rows : List (List String)) : Prop where
  fits : ∀ row ∈ rows, Fits ws row
  attained : ∀ (i w : Nat), ws[i]? = some w →
    ∃ row ∈ rows, ∃ cell : String, row[i]? = some cell ∧ cell.length = w

/-- The columns of one row are as wide as its cells. -/
theorem widest_single (row : List String) : Widest (row.map String.length) [row] := by
  have width : ∀ {i w : Nat}, (row.map String.length)[i]? = some w →
      ∃ cell, row[i]? = some cell ∧ String.length cell = w := by
    intro i w
    rw [List.getElem?_map, Option.map_eq_some_iff]
    exact id
  constructor
  · refine List.forall_mem_singleton.mpr ⟨(List.length_map _).symm, fun i w cell found here => ?_⟩
    obtain ⟨cell', same, rfl⟩ := width found
    obtain rfl : cell = cell' := Option.some.inj (here.symm.trans same)
    exact Nat.le_refl _
  · intro i w found
    exact ⟨row, List.mem_singleton_self row, width found⟩

/-- Columns are widened by the cells of one more row. -/
theorem Widest.widened (widest : Widest ws above) (columns : row.length = ws.length) :
    Widest (List.zipWith max ws (row.map String.length)) (above ++ [row]) := by
  have length : (List.zipWith max ws (row.map String.length)).length = ws.length := by
    simp [columns]
  have width : ∀ {i w : Nat}, (List.zipWith max ws (row.map String.length))[i]? = some w →
      ∃ v cell, ws[i]? = some v ∧ row[i]? = some cell ∧ max v (String.length cell) = w := by
    intro i w found
    obtain ⟨v, _, before, here, rfl⟩ := List.getElem?_zipWith_eq_some.mp found
    rw [List.getElem?_map, Option.map_eq_some_iff] at here
    obtain ⟨cell, here, rfl⟩ := here
    exact ⟨v, cell, before, here, rfl⟩
  constructor
  · rw [List.forall_mem_append, List.forall_mem_singleton]
    constructor
    · intro row' mem
      refine ⟨length ▸ (widest.fits row' mem).columns, fun i w cell found here => ?_⟩
      obtain ⟨v, _, before, -, rfl⟩ := width found
      have within := (widest.fits row' mem).within i v cell before here
      exact Nat.le_trans within (Nat.le_max_left _ _)
    · refine ⟨length ▸ columns, fun i w cell found here => ?_⟩
      obtain ⟨v, cell', -, same, rfl⟩ := width found
      obtain rfl : cell = cell' := Option.some.inj (here.symm.trans same)
      exact Nat.le_max_right _ _
  · intro i w found
    obtain ⟨v, cell, before, here, rfl⟩ := width found
    -- The width is that of the new cell or of an earlier one.
    rcases Nat.le_total v cell.length with le | le
    · exact ⟨row, List.mem_append_right _ (List.mem_singleton_self row), cell, here,
        (Nat.max_eq_right le).symm⟩
    · obtain ⟨row', mem, cell', here', same⟩ := widest.attained i v before
      exact ⟨row', List.mem_append_left _ mem, cell', here', by rw [same, Nat.max_eq_left le]⟩

/-- Columns are widened by the cells of more rows. -/
theorem Widest.foldl (widest : Widest ws above) (more : List (List String))
    (columns : ∀ row ∈ more, row.length = ws.length) :
    Widest (more.foldl (fun ws row => List.zipWith max ws (row.map String.length)) ws)
      (above ++ more) := by
  induction more generalizing ws above with
  | nil => rwa [List.append_nil]
  | cons row more ih =>
    rw [List.forall_mem_cons] at columns
    have same : (List.zipWith max ws (row.map String.length)).length = ws.length := by
      simp [columns.1]
    have widened := ih (widest.widened columns.1) (by rw [same]; exact columns.2)
    rwa [List.append_assoc, List.singleton_append] at widened

/-- **The widths of the table are those of the widest cells**, headers included. -/
theorem widest_widths {body : List (List String)} (columns : ∀ row ∈ body, row.length = 9) :
    Widest (widths body) (headers :: body) :=
  (widest_single headers).foldl body columns

/-! ## Offsets -/

/-- Where a column starts: behind the columns before it and three characters for each of them. -/
def offset (ws : List Nat) (i : Nat) : Nat := ((ws.take i).map (· + 3)).sum

theorem offset_cons_succ (w : Nat) (ws : List Nat) (i : Nat) :
    offset (w :: ws) (i + 1) = (w + 3) + offset ws i := by
  simp [offset]

theorem offset_le_offset (ws : List Nat) {i j : Nat} (le : i ≤ j) : offset ws i ≤ offset ws j := by
  induction ws generalizing i j with
  | nil => simp [offset]
  | cons w ws ih =>
    match i, j, le with
    | 0, _, _ => exact Nat.zero_le _
    | i + 1, j + 1, le =>
      rw [offset_cons_succ, offset_cons_succ]
      exact Nat.add_le_add_left (ih (Nat.le_of_succ_le_succ le)) _

/-- **Where the parts of a row start.** -/
theorem drop_intercalate {parts : List (List Char)} (lt : i < parts.length) :
    (separator.intercalate parts).drop (offset (parts.map List.length) i) =
      separator.intercalate (parts.drop i) := by
  induction i generalizing parts with
  | zero => rfl
  | succ i ih =>
    match parts, lt with
    | part :: next :: parts, lt =>
      -- The first part and the separator behind it make up the first column.
      rw [List.map_cons, offset_cons_succ, ← List.drop_drop, List.intercalate_cons_cons,
        List.drop_left' (by simp [separator]), List.drop_succ_cons]
      exact ih (Nat.lt_of_succ_lt_succ lt)

theorem length_intercalate {parts : List (List Char)} (nonempty : parts ≠ []) :
    (separator.intercalate parts).length =
      (parts.map List.length).sum + 3 * (parts.length - 1) := by
  induction parts with
  | nil => exact absurd rfl nonempty
  | cons part parts ih =>
    cases parts with
    | nil => simp
    | cons next parts =>
      rw [List.intercalate_cons_cons, List.length_append, List.length_append,
        ih (List.cons_ne_nil _ _)]
      simp [separator]
      omega

/-! ## Rows -/

/-- The cells of a row side by side, with the blanks at its end. -/
def padded (ws : List Nat) (row : List String) : List Char :=
  separator.intercalate (List.zipWith pad ws row)

/-- The cells of a row stand in their columns: each starts where its column starts, is filled up
with blanks to the width of the column, and the next one stands behind it and three more
characters. Nothing stands behind the last cell. -/
structure LaidOut (ws : List Nat) (row : List String) (line : List Char) : Prop where
  cell : ∀ (i w : Nat) (cell : String), ws[i]? = some w → row[i]? = some cell →
    i + 1 < ws.length → line.drop (offset ws i) = cell.toList ++
      List.replicate (w - cell.length) ' ' ++ [' ', '│', ' '] ++ line.drop (offset ws (i + 1))
  last : ∀ (i : Nat) (cell : String), row[i]? = some cell → i + 1 = ws.length →
    line.drop (offset ws i) = cell.toList
  /-- Only blanks behind the last cell are trimmed. -/
  trimmed : ∃ n, padded ws row = line ++ List.replicate n ' '

/-- The text of a cell ends with a character that is not blank. -/
def EndsVisibly (cell : String) : Prop :=
  ∃ front c, cell.toList = front ++ [c] ∧ Text.isBlank c = false

namespace Fits

theorem map_length_zipWith_pad (fits : Fits ws row) :
    (List.zipWith pad ws row).map List.length = ws := by
  refine List.ext_getElem (by simp [fits.columns]) fun i lt lt' => ?_
  have inRow : i < row.length := fits.columns ▸ lt'
  have within := fits.within i ws[i] row[i] (List.getElem?_eq_getElem lt')
    (List.getElem?_eq_getElem inRow)
  rw [List.getElem_map, List.getElem_zipWith, pad, List.length_append, List.length_replicate,
    String.length_toList]
  omega

theorem length_zipWith_pad (fits : Fits ws row) : (List.zipWith pad ws row).length = ws.length := by
  simp [fits.columns]

/-- Where a cell starts in the row before it is trimmed. -/
theorem drop_padded (fits : Fits ws row) (column : ws[i]? = some w) (here : row[i]? = some cell) :
    (padded ws row).drop (offset ws i) =
      separator.intercalate (pad w cell :: (List.zipWith pad ws row).drop (i + 1)) := by
  have part : (List.zipWith pad ws row)[i]? = some (pad w cell) :=
    List.getElem?_zipWith_eq_some.mpr ⟨w, cell, column, here, rfl⟩
  obtain ⟨lt, same⟩ := List.getElem?_eq_some_iff.mp part
  have drop := drop_intercalate lt
  rw [fits.map_length_zipWith_pad] at drop
  rw [padded, drop, List.drop_eq_getElem_cons lt, same]

/-- Before the trimming, each cell but the last is followed by what stands between columns. -/
theorem drop_padded_of_lt (fits : Fits ws row) (column : ws[i]? = some w)
    (here : row[i]? = some cell) (next : i + 1 < ws.length) : (padded ws row).drop (offset ws i) =
      pad w cell ++ separator ++ (padded ws row).drop (offset ws (i + 1)) := by
  have lt : i + 1 < (List.zipWith pad ws row).length := fits.length_zipWith_pad ▸ next
  have drop := drop_intercalate lt
  rw [fits.map_length_zipWith_pad] at drop
  rw [fits.drop_padded column here, padded, drop, List.drop_eq_getElem_cons lt,
    List.intercalate_cons_cons]

/-- Before the trimming, the last cell is followed by its blanks. -/
theorem drop_padded_of_eq (fits : Fits ws row) (column : ws[i]? = some w)
    (here : row[i]? = some cell) (last : i + 1 = ws.length) :
    (padded ws row).drop (offset ws i) = pad w cell := by
  have le : (List.zipWith pad ws row).length ≤ i + 1 :=
    Nat.le_of_eq (fits.length_zipWith_pad.trans last.symm)
  rw [fits.drop_padded column here, List.drop_eq_nil_of_le le, List.intercalate_singleton]

/-- **A row stands in the columns that its cells fit into**, if its last cell does not end with a
blank. -/
theorem laidOut_renderRow (fits : Fits ws row) (final : i + 1 = ws.length)
    (here : row[i]? = some cell) (visible : EndsVisibly cell) :
    LaidOut ws row (renderRow ws row) := by
  obtain ⟨front, c, text, visible⟩ := visible
  obtain ⟨w, column⟩ : ∃ w, ws[i]? = some w := by
    have lt : i < ws.length := by omega
    exact ⟨ws[i], List.getElem?_eq_getElem lt⟩
  have ends := fits.drop_padded_of_eq column here final
  -- The last cell is not empty, so its column starts inside of the row.
  have within : offset ws i ≤ (padded ws row).length := by
    by_contra beyond
    rw [List.drop_eq_nil_of_le (by omega), pad, text] at ends
    simp at ends
  -- The row consists of what stands in front of its last cell, of the cell and of blanks.
  obtain ⟨start, length, blanks⟩ : ∃ start : List Char, start.length = offset ws i ∧
      padded ws row = start ++ front ++ [c] ++ List.replicate (w - cell.length) ' ' := by
    refine ⟨(padded ws row).take (offset ws i), List.length_take_of_le within, ?_⟩
    conv_lhs => rw [← List.take_append_drop (offset ws i) (padded ws row), ends, pad, text]
    simp
  have rendered : renderRow ws row = start ++ front ++ [c] := by
    show Text.trimEnd (padded ws row) = _
    rw [blanks, Text.trimEnd_append_replicate visible]
  rw [← rendered] at blanks
  -- No column starts behind the end of the trimmed row.
  have drop : ∀ j ≤ i, (padded ws row).drop (offset ws j) =
      (renderRow ws row).drop (offset ws j) ++ List.replicate (w - cell.length) ' ' := by
    intro j le
    have le := offset_le_offset ws le
    rw [blanks, List.drop_append_of_le_length]
    simp [rendered]
    omega
  constructor
  · intro j w' cell' column' here' next
    have split := fits.drop_padded_of_lt column' here' next
    rw [drop j (by omega), drop (j + 1) (by omega), ← List.append_assoc] at split
    exact List.append_cancel_right split
  · intro j cell' here' last
    obtain rfl : j = i := by omega
    obtain rfl : cell' = cell := Option.some.inj (here'.symm.trans here)
    rw [rendered, List.append_assoc, List.drop_left' length, text]
  · exact ⟨_, blanks⟩

/-- A row is as long as its columns and what stands between them, before its end is trimmed. -/
theorem length_padded (fits : Fits ws row) (nonempty : ws ≠ []) :
    (padded ws row).length = ws.sum + 3 * (ws.length - 1) := by
  have parts : List.zipWith pad ws row ≠ [] := fun empty => by
    have length := fits.length_zipWith_pad
    rw [empty] at length
    exact nonempty (List.length_eq_zero_iff.mp length.symm)
  rw [padded, length_intercalate parts, fits.map_length_zipWith_pad, fits.length_zipWith_pad]

end Fits

theorem LaidOut.length_le {line : List Char} (laidOut : LaidOut ws row line) :
    line.length ≤ (padded ws row).length := by
  obtain ⟨n, trimmed⟩ := laidOut.trimmed
  simp [trimmed]

/-! ## Ages -/

/-- An age ends with a digit, or is a question mark. -/
theorem endsVisibly_ageText (r : SessionRecord) (now : Instant) : EndsVisibly (r.ageText now) := by
  rw [SessionRecord.ageText]
  split
  next start _ =>
    generalize minutesSince now start = minutes
    obtain ⟨front, c, last⟩ := (List.eq_nil_or_concat' (Decimal.digits (minutes % 60))).resolve_left
      Nat.toDigits_ne_nil
    have digit : c.isDigit = true := Decimal.isDigit_of_mem_digits (by rw [last]; simp)
    let zeros := List.replicate (2 - (front ++ [c]).length) '0'
    refine ⟨Decimal.digits (minutes / 60) ++ ':' :: (zeros ++ front), c, ?_,
      Text.isBlank_eq_false_of_isDigit digit⟩
    rw [hoursText, String.toList_ofList, Decimal.padded, last]
    simp [zeros]
  next => exact ⟨[], '?', rfl, rfl⟩

/-! ## The table -/

/-- **The table of some sessions is aligned**: it has columns of given widths, a row of headers, a
rule and a row for each session. -/
structure Aligned (now : Instant) (records : List SessionRecord) (ws : List Nat)
    (header rule : List Char) (body : List (List Char)) : Prop where
  columns : ws.length = 9
  widest : Widest ws (headers :: records.map (cells now))
  /-- Each of the rows is followed by a line feed, and nothing else is there. -/
  text : render now records =
    String.ofList ((header :: rule :: body).flatMap fun line => line ++ ['\n'])
  count : (header :: rule :: body).length = records.length + 2
  headerLaidOut : LaidOut ws headers header
  ruleDrawn : rule = List.replicate (ws.sum + 24) '─'
  /-- The rows stand in the order of the sessions. -/
  bodyLaidOut : List.Forall₂ (fun r line => LaidOut ws (cells now r) line) records body
  /-- No row is longer than the rule. -/
  bounded : ∀ line ∈ header :: rule :: body, line.length ≤ ws.sum + 24

/-- **The table of any sessions is aligned**, whatever the texts of the sessions are. -/
theorem aligned_of_ne_nil (now : Instant) {records : List SessionRecord} (nonempty : records ≠ []) :
    ∃ ws header rule body, Aligned now records ws header rule body := by
  have nine : ∀ row ∈ records.map (cells now), row.length = 9 :=
    List.forall_mem_map.mpr fun _ _ => rfl
  have widest := widest_widths nine
  generalize same : widths (records.map (cells now)) = ws at widest
  have columns : ws.length = 9 := (widest.fits headers List.mem_cons_self).columns.symm
  have headerLaidOut : LaidOut ws headers (renderRow ws headers) :=
    (widest.fits headers List.mem_cons_self).laidOut_renderRow (i := 8) columns.symm rfl
      ⟨['A', 'g'], 'e', rfl, rfl⟩
  have laidOut : ∀ r ∈ records, LaidOut ws (cells now r) (renderRow ws (cells now r)) := by
    intro r mem
    have fits := widest.fits (cells now r) (List.mem_cons_of_mem _ (List.mem_map_of_mem mem))
    exact fits.laidOut_renderRow (i := 8) columns.symm rfl (endsVisibly_ageText r now)
  have bounded : ∀ {row line}, row ∈ headers :: records.map (cells now) → LaidOut ws row line →
      line.length ≤ ws.sum + 24 := by
    intro row line mem laidOut
    have padded := (widest.fits row mem).length_padded (by rw [← List.length_pos_iff]; omega)
    rw [columns] at padded
    exact padded ▸ laidOut.length_le
  have ruleDrawn : rule ws = List.replicate (ws.sum + 24) '─' := by
    rw [rule, columns, List.sum_eq_foldl]
  refine ⟨ws, renderRow ws headers, rule ws, (records.map (cells now)).map (renderRow ws), columns,
    widest, ?_, by simp, headerLaidOut, ruleDrawn, ?_, ?_⟩
  · rw [render, if_neg (by simpa using nonempty), rows, same]
  · rw [List.map_map, List.forall₂_map_right_iff, List.forall₂_same]
    exact laidOut
  · rw [List.forall_mem_cons, List.forall_mem_cons, List.map_map, List.forall_mem_map]
    have drawn : (rule ws).length = ws.sum + 24 := by rw [ruleDrawn, List.length_replicate]
    refine ⟨bounded List.mem_cons_self headerLaidOut, Nat.le_of_eq drawn, fun r mem => ?_⟩
    exact bounded (List.mem_cons_of_mem _ (List.mem_map_of_mem mem)) (laidOut r mem)

/-- A session whose texts have wide characters, blanks at their ends and a line feed. -/
def wideSession : SessionRecord where
  host := "schloß.example"
  port := 27750
  id := "日本 │"
  protocol := "dp:4.20.1"
  title := " Übung\n"
  users := 3
  usernames := []
  password := true
  nsfm := false
  owner := ""
  started := "2024-01-01T12:00:00Z"
  roomcode := some "ABCDE"
  isPrivate := none

theorem aligned_wideSession : [wideSession] ≠ [] ∧ ∃ ws header rule body,
    Aligned (Instant.ofUnix 1704112200 0) [wideSession] ws header rule body :=
  ⟨List.cons_ne_nil _ _, aligned_of_ne_nil _ (List.cons_ne_nil _ _)⟩

end Table

end SessionDirectory
