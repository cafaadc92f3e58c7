import Mathlib.Data.List.DropRight
import SessionDirectory.Proofs.Except
import SessionDirectory.Proofs.Url.Percent
import SessionDirectory.Url.Basic

/-!
# Paths under a root

A text put after the text of a root that ends in a slash leaves scheme and host as they are: it is
read as a path from where the root's path ends, and then as a query. All of its path but the last
segment is resolved into directories, and the last segment is encoded as it stands unless it is a
dot segment.

## Main definitions

* `Url.tidy`: what counts of a text at the end of a URL
* `Url.descend`: the directories after one more segment
* `Url.lastSegment`: what becomes of the last segment of a path

## Main results

* `Url.parse_append`: the URL of a root's text with another text after it
* `Url.exists_parse_append_of_mark`: behind a query or a fragment no path goes on
* `Url.resolve_append`: paths are resolved segment by segment
* `Url.exists_resolve_eq`: a path ends with its last segment
* `Url.keepsEscapes_staysInPath`: escapes in a path stay as they are
* `Url.staysInPath_of_mem_path`: the path of a web address holds only what stays as it is in paths
-/

set_option autoImplicit false

namespace SessionDirectory.Url

/-! ## Texts in front of others -/

section Append

variable {α : Type} {p : α → Bool} {xs : List α}

theorem takeWhile_append_of_exists (stop : ∃ x ∈ xs, p x = false) (ys : List α) :
    (xs ++ ys).takeWhile p = xs.takeWhile p := by
  induction xs with
  | nil => simp at stop
  | cons x xs ih =>
    rw [List.cons_append, List.takeWhile_cons, List.takeWhile_cons]
    cases passes : p x with
    | false => rfl
    | true =>
      obtain ⟨y, mem, fails⟩ := stop
      rcases List.mem_cons.mp mem with rfl | mem
      · rw [passes] at fails
        cases fails
      · rw [if_pos rfl, if_pos rfl, ih ⟨y, mem, fails⟩]

theorem dropWhile_append_of_exists (stop : ∃ x ∈ xs, p x = false) (ys : List α) :
    (xs ++ ys).dropWhile p = xs.dropWhile p ++ ys := by
  rw [List.dropWhile_append, if_neg]
  rw [List.isEmpty_iff, List.dropWhile_eq_nil_iff]
  obtain ⟨x, mem, fails⟩ := stop
  intro all
  rw [all x mem] at fails
  cases fails

/-- What does not pass is not dropped. -/
theorem mem_dropWhile_of_eq_false {x : α} (fails : p x = false) (mem : x ∈ xs) :
    x ∈ xs.dropWhile p := by
  rw [← List.takeWhile_append_dropWhile (p := p) (l := xs)] at mem
  refine (List.mem_append.mp mem).resolve_left fun passes => ?_
  rw [List.mem_takeWhile_imp passes] at fails
  cases fails

theorem getLast?_of_suffix {part : List α} {x : α} (suffix : part <:+ xs) (nonempty : part ≠ [])
    (last : xs.getLast? = some x) : part.getLast? = some x := by
  obtain ⟨front, rfl⟩ := suffix
  rwa [List.getLast?_append_of_ne_nil _ nonempty] at last

theorem getLast?_dropWhile {x : α} (last : xs.getLast? = some x) (fails : p x = false) :
    (xs.dropWhile p).getLast? = some x := by
  refine getLast?_of_suffix (List.dropWhile_suffix p) ?_ last
  intro empty
  rw [List.dropWhile_eq_nil_iff.mp empty x (List.mem_of_getLast? last)] at fails
  cases fails

/-- Where the end of a list does not pass, nothing is dropped from it. -/
theorem rdropWhile_append_of_getLast? {x : α} (last : xs.getLast? = some x) (fails : p x = false)
    (ys : List α) : (xs ++ ys).rdropWhile p = xs ++ ys.rdropWhile p := by
  obtain ⟨front, rfl⟩ := List.getLast?_eq_some_iff.mp last
  induction ys using List.reverseRecOn with
  | nil =>
    rw [List.append_nil, List.rdropWhile_nil, List.append_nil]
    exact List.rdropWhile_concat_neg _ _ _ (by simp [fails])
  | append_singleton ys y ih =>
    rw [← List.append_assoc]
    by_cases passes : p y = true
    · rw [List.rdropWhile_concat_pos _ _ _ passes, List.rdropWhile_concat_pos _ _ _ passes, ih]
    · rw [List.rdropWhile_concat_neg _ _ _ passes, List.rdropWhile_concat_neg _ _ _ passes,
        List.append_assoc]

end Append

/-! ## Characters -/

theorem isTabOrNewline_eq_false_iff {c : Char} :
    isTabOrNewline c = false ↔ c ≠ '\t' ∧ c ≠ '\n' ∧ c ≠ '\r' := by
  simp [isTabOrNewline, and_assoc]

theorem isSlash_web_eq_false_iff {c : Char} : isSlash .web c = false ↔ c ≠ '/' ∧ c ≠ '\\' := by
  simp [isSlash]

theorem endsPath_eq_false_iff {c : Char} : endsPath c = false ↔ c ≠ '?' ∧ c ≠ '#' := by
  simp [endsPath]

/-! ## The text that counts -/

/-- What counts of a text at the end of a URL. -/
def tidy (cs : List Char) : List Char :=
  (cs.rdropWhile isControlOrSpace).filter (!isTabOrNewline ·)

theorem clean_eq (s : String) : clean s = tidy (s.toList.dropWhile isControlOrSpace) := rfl

theorem tidy_sublist (cs : List Char) : (tidy cs).Sublist cs :=
  List.filter_sublist.trans (List.rdropWhile_prefix _ cs).sublist

theorem tidy_append {front : List Char} (slash : front.getLast? = some '/') (cs : List Char) :
    tidy (front ++ cs) = tidy front ++ tidy cs := by
  have whole := rdropWhile_append_of_getLast? (p := isControlOrSpace) slash rfl []
  rw [List.append_nil, List.rdropWhile_nil, List.append_nil] at whole
  rw [tidy, tidy, tidy, rdropWhile_append_of_getLast? slash rfl, List.filter_append, whole]

theorem getLast?_tidy {front : List Char} (slash : front.getLast? = some '/') :
    (tidy front).getLast? = some '/' := by
  obtain ⟨front, rfl⟩ := List.getLast?_eq_some_iff.mp slash
  have whole : (front ++ ['/']).rdropWhile isControlOrSpace = front ++ ['/'] :=
    List.rdropWhile_concat_neg _ _ _ (by decide)
  have kept : ['/'].filter (!isTabOrNewline ·) = ['/'] := by decide
  rw [tidy, whole, List.filter_append, kept, List.getLast?_concat]

/-- A text counts as it stands if it has no tabs and line breaks and no blank at its end. -/
theorem tidy_eq_self_iff {cs : List Char} : tidy cs = cs ↔
    (∀ c ∈ cs, isTabOrNewline c = false) ∧
      ∀ c, cs.getLast? = some c → isControlOrSpace c = false := by
  constructor
  · intro tidied
    have part : (tidy cs).Sublist (cs.rdropWhile isControlOrSpace) := List.filter_sublist
    rw [tidied] at part
    have whole : cs.rdropWhile isControlOrSpace = cs :=
      (List.rdropWhile_prefix _ cs).sublist.antisymm part
    rw [tidy, whole, List.filter_eq_self] at tidied
    refine ⟨fun c mem => by simpa using tidied c mem, fun c last => ?_⟩
    obtain ⟨front, rfl⟩ := List.getLast?_eq_some_iff.mp last
    have fails := List.rdropWhile_eq_self_iff.mp whole (by simp)
    rwa [List.getLast_append_singleton, Bool.not_eq_true] at fails
  · rintro ⟨plain, last⟩
    have whole : cs.rdropWhile isControlOrSpace = cs := by
      rcases List.eq_nil_or_concat' cs with rfl | ⟨front, c, rfl⟩
      · rfl
      · refine List.rdropWhile_concat_neg _ _ _ ?_
        rw [last c List.getLast?_concat]
        exact Bool.false_ne_true
    rw [tidy, whole, List.filter_eq_self]
    intro c mem
    rw [plain c mem]
    rfl

variable {base : String}

theorem clean_append (slash : base.toList.getLast? = some '/') (t : String) :
    clean (base ++ t) = clean base ++ tidy t.toList := by
  have stop : ∃ c ∈ base.toList, isControlOrSpace c = false :=
    ⟨'/', List.mem_of_getLast? slash, rfl⟩
  rw [clean_eq, clean_eq, String.toList_append, dropWhile_append_of_exists stop]
  exact tidy_append (getLast?_dropWhile slash rfl) _

theorem getLast?_clean (slash : base.toList.getLast? = some '/') :
    (clean base).getLast? = some '/' :=
  getLast?_tidy (getLast?_dropWhile slash rfl)

theorem clean_sublist (s : String) : (clean s).Sublist s.toList :=
  (tidy_sublist _).trans (List.dropWhile_sublist _)

/-! ## Scheme and authority -/

/-- A scheme ends with a colon in the text, so it is the same with another text after it. -/
theorem splitScheme?_append {cs after : List Char} {scheme : String}
    (split : splitScheme? cs = some (scheme, after)) :
    (∃ front, cs = front ++ ':' :: after ∧ ∀ c ∈ front, isSchemeChar c = true) ∧
      ∀ t, splitScheme? (cs ++ t) = some (scheme, after ++ t) := by
  cases cs with
  | nil => cases split
  | cons first rest =>
    rw [splitScheme?] at split
    split at split
    next letter =>
      split at split
      next colon =>
        cases split
        have stop : ∃ c ∈ rest, isSchemeChar c = false := by
          refine ⟨':', (List.dropWhile_sublist isSchemeChar).mem ?_, by decide⟩
          rw [colon]
          exact List.mem_cons_self
        refine ⟨⟨first :: rest.takeWhile isSchemeChar, ?_, ?_⟩, fun t => ?_⟩
        · rw [List.cons_append, ← colon, List.takeWhile_append_dropWhile]
        · refine List.forall_mem_cons.mpr ⟨?_, fun c mem => List.mem_takeWhile_imp mem⟩
          simp [isSchemeChar, Char.isAlphanum, letter]
        · rw [List.cons_append, splitScheme?, if_pos letter, dropWhile_append_of_exists stop,
            takeWhile_append_of_exists stop, colon]
          rfl
      next => cases split
    next => cases split

/-- There is no web address without an authority. -/
theorem readAuthority_nil (scheme : String) : readAuthority .web scheme [] = .error .emptyHost := rfl

/-- The authority of a text after its scheme. -/
def authorityOf (cs : List Char) : List Char :=
  (cs.dropWhile (isSlash .web)).takeWhile (!endsAuthority .web ·)

/-- The text after the authority. -/
def afterAuthority (cs : List Char) : List Char :=
  (cs.dropWhile (isSlash .web)).dropWhile (!endsAuthority .web ·)

theorem afterAuthority_suffix (cs : List Char) : afterAuthority cs <:+ cs :=
  (List.dropWhile_suffix _).trans (List.dropWhile_suffix _)

theorem readWeb_eq {scheme : String} {cs : List Char} {host : Host} {port : Option Nat}
    (read : readAuthority .web scheme (authorityOf cs) = .ok (host, port)) :
    readWeb scheme cs = .ok (ofParts .web scheme (some host) port (afterAuthority cs)) := by
  have rest : (cs.dropWhile (isSlash .web)).drop (authorityOf cs).length = afterAuthority cs := by
    calc (cs.dropWhile (isSlash .web)).drop (authorityOf cs).length
        = (authorityOf cs ++ afterAuthority cs).drop (authorityOf cs).length := by
          rw [authorityOf, afterAuthority, List.takeWhile_append_dropWhile]
      _ = afterAuthority cs := List.drop_left
  show (do
    let found ← readAuthority .web scheme (authorityOf cs)
    return ofParts .web scheme (some found.1) found.2
      ((cs.dropWhile (isSlash .web)).drop (authorityOf cs).length)) = _
  rw [read, rest]
  rfl

theorem exists_readAuthority_eq {scheme : String} {cs : List Char} {u : Url}
    (read : readWeb scheme cs = .ok u) :
    ∃ host port, readAuthority .web scheme (authorityOf cs) = .ok (host, port) := by
  obtain ⟨⟨host, port⟩, authority, -⟩ := exists_of_bind_eq_ok read
  exact ⟨host, port, authority⟩

/-- A web address has an authority, so its text is not all slashes. -/
theorem authorityOf_ne_nil {scheme : String} {cs : List Char} {u : Url}
    (read : readWeb scheme cs = .ok u) :
    authorityOf cs ≠ [] ∧ ∃ c ∈ cs, isSlash .web c = false := by
  obtain ⟨host, port, authority⟩ := exists_readAuthority_eq read
  have nonempty : authorityOf cs ≠ [] := by
    intro empty
    rw [empty, readAuthority_nil] at authority
    cases authority
  refine ⟨nonempty, ?_⟩
  by_contra all
  simp only [not_exists, not_and] at all
  have body : cs.dropWhile (isSlash .web) = [] :=
    List.dropWhile_eq_nil_iff.mpr fun c mem =>
      (Bool.eq_false_or_eq_true _).resolve_right (all c mem)
  rw [authorityOf, body] at nonempty
  exact nonempty rfl

/-- An authority that ends inside the text is the same with another text after it. -/
theorem readWeb_append_of_stop {scheme : String} {cs : List Char} {u : Url}
    (read : readWeb scheme cs = .ok u)
    (stop : ∃ c ∈ cs.dropWhile (isSlash .web), (!endsAuthority .web c) = false) :
    ∃ host port, ∀ t, readWeb scheme (cs ++ t) =
      .ok (ofParts .web scheme (some host) port (afterAuthority cs ++ t)) := by
  obtain ⟨host, port, authority⟩ := exists_readAuthority_eq read
  have start := (authorityOf_ne_nil read).2
  refine ⟨host, port, fun t => ?_⟩
  have same : authorityOf (cs ++ t) = authorityOf cs := by
    rw [authorityOf, dropWhile_append_of_exists start, takeWhile_append_of_exists stop]
    rfl
  have after : afterAuthority (cs ++ t) = afterAuthority cs ++ t := by
    rw [afterAuthority, dropWhile_append_of_exists start, dropWhile_append_of_exists stop]
    rfl
  rw [← after]
  exact readWeb_eq (same ▸ authority)

/-- Where there is neither a query nor a fragment, the authority of a text that ends with a slash
ends at a slash. -/
theorem readWeb_append {scheme : String} {cs : List Char} {u : Url}
    (read : readWeb scheme cs = .ok u) (slash : cs.getLast? = some '/')
    (noQuery : '?' ∉ cs) (noFragment : '#' ∉ cs) :
    ∃ host port c rest, isSlash .web c = true ∧ (c :: rest).getLast? = some '/' ∧
      (c :: rest) <:+ cs ∧
      ∀ t, readWeb scheme (cs ++ t) = .ok (ofParts .web scheme (some host) port (c :: rest ++ t)) := by
  -- The slashes before the authority end inside the text, and so does the authority.
  have body_ne_nil : cs.dropWhile (isSlash .web) ≠ [] := by
    intro empty
    have nonempty := (authorityOf_ne_nil read).1
    rw [authorityOf, empty] at nonempty
    exact nonempty rfl
  have body_last := getLast?_of_suffix (List.dropWhile_suffix _) body_ne_nil slash
  have stop : ∃ c ∈ cs.dropWhile (isSlash .web), (!endsAuthority .web c) = false :=
    ⟨'/', List.mem_of_getLast? body_last, by decide⟩
  obtain ⟨host, port, reads⟩ := readWeb_append_of_stop read stop
  have rest_ne_nil : afterAuthority cs ≠ [] := by
    intro empty
    obtain ⟨c, mem, fails⟩ := stop
    rw [List.dropWhile_eq_nil_iff.mp empty c mem] at fails
    cases fails
  obtain ⟨c, rest, split⟩ := List.exists_cons_of_ne_nil rest_ne_nil
  have suffix := afterAuthority_suffix cs
  rw [split] at suffix reads
  refine ⟨host, port, c, rest, ?_, getLast?_of_suffix suffix (List.cons_ne_nil _ _) slash, suffix,
    reads⟩
  -- What ends the authority is neither `?` nor `#`.
  have ends := List.head?_dropWhile_not (!endsAuthority .web ·) (cs.dropWhile (isSlash .web))
  have mem : c ∈ cs := suffix.mem List.mem_cons_self
  rw [show (cs.dropWhile (isSlash .web)).dropWhile (!endsAuthority .web ·) = c :: rest from split]
    at ends
  have ends : endsAuthority .web c = true := by simpa using ends
  have notQuery : c ≠ '?' := fun eq => noQuery (eq ▸ mem)
  have notFragment : c ≠ '#' := fun eq => noFragment (eq ▸ mem)
  simpa [endsAuthority, notQuery, notFragment] using ends

theorem scheme_readWeb {scheme : String} {cs : List Char} {u : Url}
    (read : readWeb scheme cs = .ok u) : u.scheme = scheme := by
  obtain ⟨host, port, authority⟩ := exists_readAuthority_eq read
  rw [readWeb_eq authority] at read
  cases read
  rfl

theorem scheme_readFile {scheme : String} {cs : List Char} {u : Url}
    (read : readFile scheme cs = .ok u) : u.scheme = scheme := by
  rw [readFile.eq_def] at read
  split at read
  · split at read
    · simp only at read
      split at read
      · cases read
        rfl
      · obtain ⟨host, -, read⟩ := exists_of_bind_eq_ok read
        cases read
        rfl
    · cases read
      rfl
  · cases read
    rfl

theorem scheme_readOther {scheme : String} {cs : List Char} {u : Url}
    (read : readOther scheme cs = .ok u) : u.scheme = scheme := by
  rw [readOther.eq_def] at read
  split at read
  · obtain ⟨host, -, read⟩ := exists_of_bind_eq_ok read
    cases read
    rfl
  · cases read
    rfl
  · cases read
    rfl

/-- The URL of a text has the scheme of the text. -/
theorem exists_splitScheme?_eq {s : String} {u : Url} (parsed : parse s = .ok u) :
    ∃ rest, splitScheme? (clean s) = some (u.scheme, rest) := by
  rw [parse] at parsed
  split at parsed
  next => cases parsed
  next scheme rest split =>
    split at parsed
    · rw [scheme_readWeb parsed]
      exact ⟨rest, split⟩
    · rw [scheme_readFile parsed]
      exact ⟨rest, split⟩
    · rw [scheme_readOther parsed]
      exact ⟨rest, split⟩

/-! ## Segments -/

section Segments

variable {kind : SchemeKind} {cs : List Char}

theorem splitSegments_ne_nil (kind : SchemeKind) (cs : List Char) : splitSegments kind cs ≠ [] := by
  cases cs with
  | nil => simp [splitSegments]
  | cons c cs =>
    rw [splitSegments]
    split
    · simp
    · split <;> simp

theorem splitSegments_cons_of_slash {c : Char} (slash : isSlash kind c = true) (cs : List Char) :
    splitSegments kind (c :: cs) = [] :: splitSegments kind cs := by
  rw [splitSegments, if_pos slash]

theorem splitSegments_cons_of_not {c : Char} (other : isSlash kind c = false)
    {segment : List Char} {segments : List (List Char)}
    (split : splitSegments kind cs = segment :: segments) :
    splitSegments kind (c :: cs) = (c :: segment) :: segments := by
  rw [splitSegments, if_neg (by simp [other]), split]

theorem splitSegments_append {c : Char} (slash : isSlash kind c = true) (front cs : List Char) :
    splitSegments kind (front ++ c :: cs) = splitSegments kind front ++ splitSegments kind cs := by
  induction front with
  | nil => exact splitSegments_cons_of_slash slash cs
  | cons x front ih =>
    rw [List.cons_append]
    obtain ⟨segment, segments, split⟩ :=
      List.exists_cons_of_ne_nil (splitSegments_ne_nil kind front)
    cases other : isSlash kind x with
    | true =>
      rw [splitSegments_cons_of_slash other, splitSegments_cons_of_slash other, ih]
      rfl
    | false =>
      rw [split] at ih
      rw [splitSegments_cons_of_not other ih, splitSegments_cons_of_not other split]
      rfl

theorem splitSegments_of_not_slash (plain : ∀ c ∈ cs, isSlash kind c = false) :
    splitSegments kind cs = [cs] := by
  induction cs with
  | nil => rfl
  | cons c cs ih =>
    rw [List.forall_mem_cons] at plain
    exact splitSegments_cons_of_not plain.1 (ih plain.2)

/-- A segment is a part of the text without slashes. -/
theorem of_mem_splitSegments {segment : List Char} (mem : segment ∈ splitSegments kind cs) :
    segment.Sublist cs ∧ ∀ c ∈ segment, isSlash kind c = false := by
  -- A character that is no slash belongs to the first segment of the rest.
  induction cs generalizing segment with
  | nil =>
    rw [splitSegments, List.mem_singleton] at mem
    subst mem
    exact ⟨List.Sublist.refl _, fun c mem => absurd mem List.not_mem_nil⟩
  | cons c cs ih =>
    obtain ⟨first, segments, split⟩ := List.exists_cons_of_ne_nil (splitSegments_ne_nil kind cs)
    cases other : isSlash kind c with
    | true =>
      rw [splitSegments_cons_of_slash other] at mem
      rcases List.mem_cons.mp mem with rfl | mem
      · exact ⟨List.nil_sublist _, fun c mem => absurd mem List.not_mem_nil⟩
      · exact ⟨(ih mem).1.cons c, (ih mem).2⟩
    | false =>
      rw [splitSegments_cons_of_not other split] at mem
      rw [split] at ih
      rcases List.mem_cons.mp mem with rfl | mem
      · obtain ⟨part, plain⟩ := ih List.mem_cons_self
        exact ⟨part.cons_cons c, List.forall_mem_cons.mpr ⟨other, plain⟩⟩
      · obtain ⟨part, plain⟩ := ih (List.mem_cons_of_mem _ mem)
        exact ⟨part.cons c, plain⟩

/-! ## Resolved paths -/

/-- The directories after one more segment, newest first. -/
def descend (done : List (List Char)) (segment : List Char) : List (List Char) :=
  if isDoubleDot segment then done.drop 1
  else if isSingleDot segment then done
  else Percent.encode staysInPath segment :: done

/-- What becomes of the last segment of a path. -/
def lastSegment (segment : List Char) : List Char :=
  if isDoubleDot segment || isSingleDot segment then []
  else Percent.encode staysInPath segment

theorem resolve_cons {segments : List (List Char)} (nonempty : segments ≠ [])
    (done : List (List Char)) (segment : List Char) :
    resolve done (segment :: segments) = resolve (descend done segment) segments := by
  obtain ⟨next, rest, rfl⟩ := List.exists_cons_of_ne_nil nonempty
  rw [resolve, descend]
  · split
    · rfl
    · split <;> rfl
  · intro empty
    cases empty

/-- **Paths are resolved segment by segment.** -/
theorem resolve_append {segments : List (List Char)} (nonempty : segments ≠ [])
    (done directories : List (List Char)) :
    resolve done (directories ++ segments) = resolve (directories.foldl descend done) segments := by
  induction directories generalizing done with
  | nil => rfl
  | cons directory directories ih =>
    rw [List.cons_append, resolve_cons (List.append_ne_nil_of_right_ne_nil _ nonempty), ih]
    rfl

/-- **A path ends with its last segment.** -/
theorem exists_resolve_eq {segments : List (List Char)} (nonempty : segments ≠ [])
    (done : List (List Char)) :
    ∃ directories,
      resolve done segments = directories ++ [lastSegment (segments.getLast nonempty)] := by
  obtain ⟨front, last, rfl⟩ := (List.eq_nil_or_concat' segments).resolve_left nonempty
  -- A dot segment at the end leaves an empty one, whether it goes up or not.
  rw [resolve_append (List.cons_ne_nil _ _), List.getLast_append_singleton, resolve, lastSegment]
  split
  next above =>
    rw [if_pos (by simp [above]), List.reverse_cons]
    exact ⟨_, rfl⟩
  next notAbove =>
    split
    next here =>
      rw [if_pos (by simp [here]), List.reverse_cons]
      exact ⟨_, rfl⟩
    next notHere =>
      rw [if_neg (by simp [notAbove, notHere]), List.reverse_cons]
      exact ⟨_, rfl⟩

theorem of_mem_descend {done : List (List Char)} {segment directory : List Char}
    (mem : directory ∈ descend done segment) :
    directory ∈ done ∨ directory = Percent.encode staysInPath segment := by
  rw [descend] at mem
  split at mem
  · exact .inl (List.mem_of_mem_drop mem)
  · split at mem
    · exact .inl mem
    · exact (List.mem_cons.mp mem).symm

/-- The segments of a resolved path are empty or encoded. -/
theorem of_mem_resolve {done segments : List (List Char)} {segment : List Char}
    (mem : segment ∈ resolve done segments) :
    segment ∈ done ∨ segment = [] ∨ ∃ cs, segment = Percent.encode staysInPath cs := by
  induction segments generalizing done with
  | nil => exact .inl (List.mem_reverse.mp mem)
  | cons first rest ih =>
    by_cases last : rest = []
    · subst last
      rw [resolve] at mem
      split at mem
      · rcases List.mem_cons.mp (List.mem_reverse.mp mem) with empty | earlier
        · exact .inr (.inl empty)
        · exact .inl (List.mem_of_mem_drop earlier)
      · split at mem
        · rcases List.mem_cons.mp (List.mem_reverse.mp mem) with empty | earlier
          · exact .inr (.inl empty)
          · exact .inl earlier
        · rcases List.mem_cons.mp (List.mem_reverse.mp mem) with encoded | earlier
          · exact .inr (.inr ⟨first, encoded⟩)
          · exact .inl earlier
    · rw [resolve_cons last] at mem
      rcases ih mem with earlier | other
      · rcases of_mem_descend earlier with earlier | encoded
        · exact .inl earlier
        · exact .inr (.inr ⟨first, encoded⟩)
      · exact .inr other

/-- A segment without escapes is a dot segment only as it stands. -/
theorem plainDots_eq_self (none : Percent.NoEscape cs) : plainDots cs = cs := by
  induction cs using plainDots.induct with
  | case1 rest ih => exact absurd (none '2' 'e' ⟨[], rest, rfl⟩) (by decide)
  | case2 rest ih => exact absurd (none '2' 'E' ⟨[], rest, rfl⟩) (by decide)
  | case3 c rest other other' ih =>
    rw [plainDots, ih (Percent.noEscape_cons_iff.mp none).2]
    · exact other
    · exact other'
  | case4 => rfl

/-- **Escapes in a path stay as they are.** -/
theorem keepsEscapes_staysInPath : Percent.KeepsEscapes staysInPath := by
  refine ⟨by decide, fun c digit => ?_⟩
  have others : "\"#<>?^\x60\x7b\x7d".toList.all fun c => (Percent.hexValue? c).isNone := by
    decide
  have stays : "\"#<>?^\x60\x7b\x7d".toList.contains c = false := by
    rw [Bool.eq_false_iff]
    intro mem
    have other := List.all_eq_true.mp others c (List.contains_iff_mem.mp mem)
    rw [Option.isNone_iff_eq_none.mp other] at digit
    cases digit
  obtain ⟨low, high⟩ : 0x21 ≤ c.toNat ∧ c.toNat ≤ 0x7e := Percent.printable_of_digit digit
  rw [staysInPath, stays, decide_eq_true low, decide_eq_true high]
  rfl

theorem slash_not_mem_encode (plain : '/' ∉ cs) : '/' ∉ Percent.encode staysInPath cs := by
  intro mem
  rcases Percent.mem_encode mem with mem | mark | digit
  · exact plain mem
  · exact absurd mark (by decide)
  · exact absurd digit (by decide)

end Segments

/-- What stands in a path are characters that stand for themselves in one. -/
theorem staysInPath_of_mem_path {base : String} {u : Url} (parsed : parse base = .ok u)
    (web : SchemeKind.of u.scheme = .web) {segment : List Char} (mem : segment ∈ u.path) {c : Char}
    (part : c ∈ segment) : staysInPath c = true := by
  obtain ⟨rest, scheme⟩ := exists_splitScheme?_eq parsed
  have read : readWeb u.scheme rest = .ok u := by
    rw [parse, scheme] at parsed
    simpa only [web] using parsed
  obtain ⟨host, port, authority⟩ := exists_readAuthority_eq read
  rw [Except.ok.inj (read.symm.trans (readWeb_eq authority))] at mem
  -- Nothing comes before the segments of the text, and these are encoded.
  obtain ⟨segments, path⟩ : ∃ segments, segment ∈ resolve [] segments := by
    change segment ∈ readPath .web _ at mem
    unfold readPath at mem
    split at mem
    · exact ⟨_, mem⟩
    · exact ⟨_, mem⟩
  rcases of_mem_resolve path with earlier | rfl | ⟨cs, rfl⟩
  · cases earlier
  · cases part
  · exact keepsEscapes_staysInPath.of_mem_encode part

/-! ## Texts under a root -/

/-- The path of a text after a slash goes on where the text before it ends. -/
theorem exists_readPath_eq {c : Char} {rest : List Char} (slash : isSlash .web c = true)
    (last : (c :: rest).getLast? = some '/') :
    ∃ done, ∀ t, readPath .web (c :: rest ++ t) = resolve done (splitSegments .web t) := by
  have path : ∀ t, readPath .web (c :: rest ++ t) = resolve [] (splitSegments .web (rest ++ t)) := by
    intro t
    rw [List.cons_append, readPath, if_pos slash]
  rcases List.eq_nil_or_concat' rest with rfl | ⟨front, x, rfl⟩
  · exact ⟨[], path⟩
  · obtain rfl : x = '/' := by
      rw [← List.cons_append, List.getLast?_concat] at last
      exact Option.some.inj last
    -- All segments up to the slash are directories.
    refine ⟨(splitSegments .web front).foldl descend [], fun t => ?_⟩
    rw [path, List.append_assoc, List.singleton_append, splitSegments_append (by decide),
      resolve_append (splitSegments_ne_nil _ _)]

theorem endsPath_of_mem {cs : List Char} {c : Char} (noQuery : '?' ∉ cs) (noFragment : '#' ∉ cs)
    (mem : c ∈ cs) : (!endsPath c) = true := by
  rw [Bool.not_eq_true', endsPath_eq_false_iff]
  exact ⟨fun eq => noQuery (eq ▸ mem), fun eq => noFragment (eq ▸ mem)⟩

theorem kind_eq_web_of_isHttp {u : Url} (http : u.isHttp = true) :
    SchemeKind.of u.scheme = .web := by
  rw [isHttp, Bool.or_eq_true, decide_eq_true_eq, decide_eq_true_eq] at http
  rcases http with eq | eq <;> rw [eq] <;> rfl

/-- What follows the scheme of a web address is read without it, also with another text after it. -/
theorem exists_readWeb_eq {base : String} {root : Url} (parsed : parse base = .ok root)
    (http : root.isHttp = true) :
    ∃ front after, clean base = front ++ ':' :: after ∧ (∀ c ∈ front, isSchemeChar c = true) ∧
      readWeb root.scheme after = .ok root ∧
      ∀ s t, clean s = clean base ++ t → parse s = readWeb root.scheme (after ++ t) := by
  obtain ⟨after, split⟩ := exists_splitScheme?_eq parsed
  have web := kind_eq_web_of_isHttp http
  obtain ⟨⟨front, whole, letters⟩, splits⟩ := splitScheme?_append split
  have reads : ∀ s t, clean s = clean base ++ t → parse s = readWeb root.scheme (after ++ t) := by
    intro s t text
    rw [parse, text, splits]
    simp only [web]
  refine ⟨front, after, whole, letters, ?_, reads⟩
  have itself := reads base [] (List.append_nil _).symm
  rw [List.append_nil, parsed] at itself
  exact itself.symm

/-- **The URL of a root's text with another text after it.** The root is a web address without query
and fragment whose text ends with a slash: its path ends with an empty segment, and what follows is
resolved from the directories before that. -/
theorem parse_append {base : String} {root : Url} (parsed : parse base = .ok root)
    (http : root.isHttp = true) (slash : base.toList.getLast? = some '/')
    (noQuery : '?' ∉ base.toList) (noFragment : '#' ∉ base.toList) :
    root.query = none ∧ ∃ done, root.path = done.reverse ++ [[]] ∧
      ∀ t : String, parse (base ++ t) = .ok { root with
        path := resolve done (splitSegments .web ((tidy t.toList).takeWhile (!endsPath ·)))
        query := readQuery .web ((tidy t.toList).dropWhile (!endsPath ·)) } := by
  -- What follows the scheme is read as a web address, and it ends with the slash of the root.
  obtain ⟨front, after, whole, -, read, parses⟩ := exists_readWeb_eq parsed http
  have suffix : after <:+ clean base := by
    rw [whole]
    exact ⟨front ++ [':'], by simp⟩
  have sub : after.Sublist base.toList := suffix.sublist.trans (clean_sublist base)
  have after_last : after.getLast? = some '/' := by
    refine getLast?_of_suffix suffix ?_ (getLast?_clean slash)
    rintro rfl
    have last := getLast?_clean slash
    rw [whole, List.getLast?_concat] at last
    cases last
  obtain ⟨host, port, c, rest, starts, last, part, reads⟩ := readWeb_append read after_last
    (fun mem => noQuery (sub.mem mem)) (fun mem => noFragment (sub.mem mem))
  have plain : ∀ x ∈ c :: rest, (!endsPath x) = true := by
    intro x mem
    exact endsPath_of_mem (fun mem => noQuery (sub.mem mem)) (fun mem => noFragment (sub.mem mem))
      (part.mem mem)
  obtain ⟨done, path⟩ := exists_readPath_eq starts last
  -- Without a text after it the URL is the root, which tells host and port.
  have whole : ofParts .web root.scheme (some host) port (c :: rest ++ []) = root := by
    have same := reads []
    rw [List.append_nil, read] at same
    exact (Except.ok.inj same).symm
  have parts : ∀ t, ofParts .web root.scheme (some host) port (c :: rest ++ t) =
      { root with
        path := resolve done (splitSegments .web (t.takeWhile (!endsPath ·)))
        query := readQuery .web (t.dropWhile (!endsPath ·)) } := by
    intro t
    rw [ofParts, List.takeWhile_append_of_pos plain, List.dropWhile_append_of_pos plain, path,
      ← congrArg Url.host whole, ← congrArg Url.port whole, ← congrArg Url.rooted whole]
    rfl
  have itself := (parts []).symm.trans whole
  have path_eq : root.path = ([] :: done).reverse := (congrArg Url.path itself).symm
  refine ⟨(congrArg Url.query itself).symm, done, path_eq.trans List.reverse_cons, fun t => ?_⟩
  rw [parses _ _ (clean_append slash t), reads, parts]

/-- What neither is a blank nor a line break counts. -/
theorem mem_clean {s : String} {c : Char} (mem : c ∈ s.toList)
    (shown : isControlOrSpace c = false) (plain : isTabOrNewline c = false) : c ∈ clean s := by
  -- It stays when the end is dropped after the start.
  have start := mem_dropWhile_of_eq_false shown mem
  have both := mem_dropWhile_of_eq_false shown (List.mem_reverse.mpr start)
  exact List.mem_filter.mpr ⟨List.mem_reverse.mpr both, by rw [plain]; rfl⟩

/-- **Behind a query or a fragment no path goes on**: with another text after it, a web address
whose text has one of them keeps its path. -/
theorem exists_parse_append_of_mark {base : String} {root : Url} (parsed : parse base = .ok root)
    (http : root.isHttp = true) (slash : base.toList.getLast? = some '/') {mark : Char}
    (ends : endsPath mark = true) (mem : mark ∈ base.toList) (t : String) :
    ∃ u, parse (base ++ t) = .ok u ∧ u.path = root.path := by
  have isMark : mark = '?' ∨ mark = '#' := by simpa [endsPath] using ends
  have notSlash : isSlash .web mark = false := by rcases isMark with rfl | rfl <;> rfl
  have endsToo : (!endsAuthority .web mark) = false := by rcases isMark with rfl | rfl <;> rfl
  obtain ⟨front, after, whole, letters, read, parses⟩ := exists_readWeb_eq parsed http
  have mem : mark ∈ after := by
    have shown : mark ∈ clean base := by
      rcases isMark with rfl | rfl <;> exact mem_clean mem rfl rfl
    rw [whole] at shown
    -- The mark is no character of a scheme.
    rcases List.mem_append.mp shown with scheme | rest
    · have letter := letters mark scheme
      rcases isMark with rfl | rfl <;> exact absurd letter (by decide)
    · rcases List.mem_cons.mp rest with colon | rest
      · rcases isMark with rfl | rfl <;> cases colon
      · exact rest
  have body := mem_dropWhile_of_eq_false notSlash mem
  obtain ⟨host, port, reads⟩ := readWeb_append_of_stop read ⟨mark, body, endsToo⟩
  have stop : ∃ c ∈ afterAuthority after, (!endsPath c) = false :=
    ⟨mark, mem_dropWhile_of_eq_false endsToo body, by rw [ends]; rfl⟩
  have itself := reads []
  rw [List.append_nil, List.append_nil, read] at itself
  refine ⟨_, (parses _ _ (clean_append slash t)).trans (reads _), ?_⟩
  rw [Except.ok.inj itself, ofParts, ofParts, takeWhile_append_of_exists stop]

end SessionDirectory.Url
