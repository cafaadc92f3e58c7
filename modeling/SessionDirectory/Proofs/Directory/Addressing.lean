import SessionDirectory.Directory.Client
import SessionDirectory.Proofs.Url.Path

/-!
# What requests address

The id of a listing and a room code are put into the text of a URL as they stand. The request
addresses them, as the only segment below their directory, exactly if they read the same as a
segment of a path: if they hold no separator, if nothing of them is dropped as a blank, and if they
are neither a dot segment nor hold an escape. Other texts address other things, among them the
collection of all listings.

## Main definitions

* `IsAbout`: the calls about one listing or one room code
* `Addresses`: a request addresses a text in a directory under a root
* `IsSegment`: a text reads the same as a segment of a path
* `Addressing`: what the requests of a client address

## Main results

* `addresses_iff`: when a request addresses its text
* `Addresses.unique`: a target addresses one text only
* `addressing_of_new`: the rules hold of every client of a web address
* `not_addresses_of_slash`: a text with a slash, and others that address the wrong thing
-/

set_option autoImplicit false

namespace SessionDirectory

open Url

/-- The calls about one listing or one room code, with their directory and their text. -/
inductive IsAbout : Call → String → String → Prop
  | update (id : ListingId) (key : String) (fields : UpdateFields) :
      IsAbout (.update id key fields) "sessions/" id.toText
  | unlist (id : ListingId) (key : String) : IsAbout (.unlist id key) "sessions/" id.toText
  | roomCode (code : String) : IsAbout (.roomCode code) "join/" code

/-- **A request addresses a text in a directory under a root**: its target goes on from that of the
root with the directory and exactly one more segment, which stands for the text. -/
structure Addresses (root : Url) (directory text : String) (r : Request) : Prop where
  segment : ∃ segment : List Char, segment ≠ [] ∧ '/' ∉ segment ∧
    r.url.target = root.target ++ directory ++ String.ofList segment ∧
    Percent.decodeText? segment = some text
  query : r.url.query = none

/-- **A text reads the same as a segment of a path.** -/
structure IsSegment (text : String) : Prop where
  nonempty : text ≠ ""
  notDot : text ≠ "."
  notDotDot : text ≠ ".."
  /-- Separators end the segment, and tabs and line breaks are dropped. -/
  plain : ∀ c ∈ text.toList, c ∉ ['/', '\\', '?', '#', '\t', '\n', '\r']
  /-- Blanks and controls at the end are dropped too. -/
  last : ∀ c, text.toList.getLast? = some c → 0x20 < c.toNat
  /-- Escapes would be taken for the bytes that they stand for. -/
  noEscape : Percent.NoEscape text.toList

/-! ## Segments -/

section Segment

variable {text : String}

theorem IsSegment.tidy_eq (segment : IsSegment text) : tidy text.toList = text.toList := by
  refine tidy_eq_self_iff.mpr ⟨fun c mem => ?_, fun c last => ?_⟩
  · have other := segment.plain c mem
    simp only [List.mem_cons, not_or] at other
    simp [isTabOrNewline_eq_false_iff, other]
  · have above := segment.last c last
    simp only [isControlOrSpace, decide_eq_false_iff_not]
    omega

theorem IsSegment.endsPath_eq (segment : IsSegment text) :
    ∀ c ∈ text.toList, (!endsPath c) = true :=
  fun c mem => endsPath_of_mem (fun mem => segment.plain '?' mem (by decide))
    (fun mem => segment.plain '#' mem (by decide)) mem

theorem IsSegment.isSlash_eq (segment : IsSegment text) :
    ∀ c ∈ text.toList, isSlash .web c = false := by
  intro c mem
  have other := segment.plain c mem
  simp only [List.mem_cons, not_or] at other
  simp [isSlash_web_eq_false_iff, other]

theorem IsSegment.resolve_eq (segment : IsSegment text) (done : List (List Char)) :
    resolve done [text.toList] = done.reverse ++ [Percent.encode staysInPath text.toList] := by
  have plain := plainDots_eq_self segment.noEscape
  have notDot : ¬ isSingleDot text.toList = true := by
    rw [isSingleDot, plain, decide_eq_true_eq]
    exact fun dot => segment.notDot (String.toList_inj.mp dot)
  have notDotDot : ¬ isDoubleDot text.toList = true := by
    rw [isDoubleDot, plain, decide_eq_true_eq]
    exact fun dots => segment.notDotDot (String.toList_inj.mp dots)
  rw [resolve, if_neg notDotDot, if_neg notDot, List.reverse_cons]

/-- The part of a text that comes to stand last in a path. -/
def lastPart (text : String) : List Char :=
  (splitSegments .web ((tidy text.toList).takeWhile (!endsPath ·))).getLast
    (splitSegments_ne_nil _ _)

theorem IsSegment.splitSegments_eq (segment : IsSegment text) :
    splitSegments .web ((tidy text.toList).takeWhile (!endsPath ·)) = [text.toList] := by
  rw [segment.tidy_eq, List.takeWhile_eq_self_iff.mpr segment.endsPath_eq]
  exact splitSegments_of_not_slash segment.isSlash_eq

theorem lastPart_sublist (text : String) :
    (lastPart text).Sublist ((tidy text.toList).takeWhile (!endsPath ·)) :=
  (of_mem_splitSegments (List.getLast_mem _)).1

theorem isSlash_of_mem_lastPart {c : Char} (mem : c ∈ lastPart text) : isSlash .web c = false :=
  (of_mem_splitSegments (List.getLast_mem _)).2 c mem

/-- **A text all of which comes to stand last** in a path reads the same as a segment, unless it is
a dot segment or holds an escape. -/
theorem isSegment_of_lastPart_eq (whole : lastPart text = text.toList)
    (last : lastSegment text.toList ≠ []) (noEscape : Percent.NoEscape text.toList) :
    IsSegment text := by
  -- Nothing is dropped on the way from the text to its last part.
  have part := lastPart_sublist text
  rw [whole] at part
  have tidied : tidy text.toList = text.toList :=
    (tidy_sublist _).antisymm (part.trans (List.takeWhile_sublist _))
  have shown : text.toList.takeWhile (!endsPath ·) = text.toList := by
    rw [tidied] at part
    exact (List.takeWhile_sublist _).antisymm part
  obtain ⟨noBreak, noBlank⟩ := tidy_eq_self_iff.mp tidied
  have noEnd := List.takeWhile_eq_self_iff.mp shown
  have noSlash : ∀ c ∈ text.toList, isSlash .web c = false := by
    intro c mem
    rw [← whole] at mem
    exact isSlash_of_mem_lastPart mem
  refine ⟨?_, ?_, ?_, fun c mem => ?_, fun c last => ?_, noEscape⟩
  · rintro rfl
    exact last rfl
  · rintro rfl
    exact last (by decide)
  · rintro rfl
    exact last (by decide)
  · have notSlash := noSlash c mem
    have notEnd := noEnd c mem
    have notBreak := noBreak c mem
    rw [isSlash_web_eq_false_iff] at notSlash
    rw [Bool.not_eq_true', endsPath_eq_false_iff] at notEnd
    rw [isTabOrNewline_eq_false_iff] at notBreak
    simp [notSlash, notEnd, notBreak]
  · have notBlank := noBlank c last
    simp only [isControlOrSpace, decide_eq_false_iff_not] at notBlank
    omega

end Segment

/-! ## Targets -/

/-- What follows the last slash is told by the whole. -/
theorem eq_of_append_slash {front front' segment segment' : List Char} (plain : '/' ∉ segment)
    (plain' : '/' ∉ segment') (eq : front ++ '/' :: segment = front' ++ '/' :: segment') :
    segment = segment' := by
  -- Read from its end, the whole tells where its last slash is.
  have after : ∀ {front segment : List Char}, '/' ∉ segment →
      (front ++ '/' :: segment).rtakeWhile (· ≠ '/') = segment := by
    intro front segment plain
    have passes : ∀ c ∈ segment.reverse, decide (c ≠ '/') = true := by
      intro c mem
      rw [decide_eq_true_eq]
      rintro rfl
      exact plain (List.mem_reverse.mp mem)
    rw [List.rtakeWhile, List.reverse_append, List.reverse_cons, List.append_assoc,
      List.takeWhile_append_of_pos passes, List.singleton_append,
      List.takeWhile_cons_of_neg (by simp), List.append_nil, List.reverse_reverse]
  rw [← after plain, eq, after plain']

theorem target_of_query_eq_none {u : Url} (query : u.query = none) :
    u.target = String.ofList (writePath u.path) := by
  rw [target, query, List.append_nil]

theorem writePath_concat (directories : List (List Char)) (segment : List Char) :
    writePath (directories ++ [segment]) = writePath directories ++ '/' :: segment := by
  simp [writePath]

/-- A directory of the API: a name that is a segment as it stands, and a slash. -/
structure IsDirectory (directory : String) (name : List Char) : Prop where
  text : directory.toList = name ++ ['/']
  tidy : tidy directory.toList = directory.toList
  shown : directory.toList.all (!endsPath ·) = true
  plain : name.all (!isSlash .web ·) = true
  descend : ∀ done, descend done name = name :: done

theorem isDirectory_sessions : IsDirectory "sessions/" "sessions".toList :=
  ⟨by decide, by decide, by decide, by decide, fun done => rfl⟩

theorem isDirectory_join : IsDirectory "join/" "join".toList :=
  ⟨by decide, by decide, by decide, by decide, fun done => rfl⟩

/-- The root of an API: a web address without query and fragment whose text ends with a slash. -/
structure IsRoot (base : String) (root : Url) : Prop where
  parsed : Url.parse base = .ok root
  http : root.isHttp = true
  slash : base.toList.getLast? = some '/'
  noQuery : '?' ∉ base.toList
  noFragment : '#' ∉ base.toList

section Root

variable {base : String} {root : Url} {directory text : String} {name : List Char}

/-- **The URL of a text in a directory under a root.** -/
theorem IsRoot.parse_eq (isRoot : IsRoot base root) (isDirectory : IsDirectory directory name) :
    ∃ done, root.target ++ directory = String.ofList (writePath (done.reverse ++ [name]) ++ ['/']) ∧
      ∀ text, Url.parse (base ++ (directory ++ text)) = .ok { root with
        path := resolve (name :: done)
          (splitSegments .web ((tidy text.toList).takeWhile (!endsPath ·)))
        query := readQuery .web ((tidy text.toList).dropWhile (!endsPath ·)) } := by
  obtain ⟨query, done, path, parse⟩ := parse_append isRoot.parsed isRoot.http isRoot.slash
    isRoot.noQuery isRoot.noFragment
  refine ⟨done, ?_, fun text => ?_⟩
  · apply String.toList_inj.mp
    rw [target_of_query_eq_none query, path, String.toList_append, isDirectory.text]
    simp [writePath]
  · -- The directory counts as it stands, and its name is one more directory of the path.
    have last : directory.toList.getLast? = some '/' := by
      rw [isDirectory.text, List.getLast?_concat]
    have plain : ∀ c ∈ name, isSlash .web c = false := fun c mem => by
      simpa using List.all_eq_true.mp isDirectory.plain c mem
    have split : ∀ t, splitSegments .web (directory.toList ++ t) =
        [name] ++ splitSegments .web t := by
      intro t
      rw [isDirectory.text, List.append_assoc, List.singleton_append,
        splitSegments_append (by decide), splitSegments_of_not_slash plain]
    have shown := List.all_eq_true.mp isDirectory.shown
    rw [parse, String.toList_append, tidy_append last, isDirectory.tidy,
      List.takeWhile_append_of_pos shown, List.dropWhile_append_of_pos shown, split,
      resolve_append (splitSegments_ne_nil _ _), List.foldl_cons, isDirectory.descend]
    rfl

theorem slash_not_mem_lastPart (text : String) : '/' ∉ lastPart text := fun mem =>
  absurd (isSlash_of_mem_lastPart mem) (by decide)

theorem slash_not_mem_lastSegment (text : String) : '/' ∉ lastSegment (lastPart text) := by
  rw [lastSegment]
  split
  · exact List.not_mem_nil
  · exact slash_not_mem_encode (slash_not_mem_lastPart text)

theorem lastSegment_of_ne_nil {segment : List Char} (nonempty : lastSegment segment ≠ []) :
    lastSegment segment = Percent.encode staysInPath segment := by
  rw [lastSegment] at nonempty ⊢
  split at nonempty
  next => exact absurd rfl nonempty
  next notDots => rw [if_neg notDots]

/-- **A request addresses its text if and only if the text reads the same as a segment.** -/
theorem addresses_iff (isRoot : IsRoot base root) (isDirectory : IsDirectory directory name)
    {r : Request} (parsed : Url.parse (base ++ (directory ++ text)) = .ok r.url) :
    Addresses root directory text r ↔ IsSegment text := by
  obtain ⟨done, start, parse⟩ := isRoot.parse_eq isDirectory
  have url := Except.ok.inj (parsed.symm.trans (parse text))
  constructor
  · rintro ⟨⟨segment, nonempty, plain, target, decoded⟩, query⟩
    obtain ⟨front, path⟩ := exists_resolve_eq (splitSegments_ne_nil .web _) (name :: done)
    have path : r.url.path = front ++ [lastSegment (lastPart text)] := by
      rw [url]
      exact path
    -- The target ends with the last segment of the path, which is the segment that is addressed.
    rw [target_of_query_eq_none query, path, start, writePath_concat, ← String.ofList_append,
      List.append_assoc, List.singleton_append] at target
    obtain rfl : lastSegment (lastPart text) = segment :=
      eq_of_append_slash (slash_not_mem_lastSegment text) plain (String.ofList_injective target)
    rw [lastSegment_of_ne_nil nonempty, Percent.decodeText?_eq_some_iff,
      Percent.decode_encode keepsEscapes_staysInPath] at decoded
    -- It stands for the whole text, of which it is a part, so it is all of it.
    have part : (lastPart text).Sublist text.toList :=
      (lastPart_sublist text).trans ((List.takeWhile_sublist _).trans (tidy_sublist _))
    obtain ⟨whole, noEscape⟩ := Percent.eq_of_sublist_of_decode_eq part decoded
    rw [whole] at nonempty
    exact isSegment_of_lastPart_eq whole nonempty noEscape
  · intro segment
    -- Nothing of the text is dropped, so all of it is encoded as the last segment.
    have path : r.url.path =
        done.reverse ++ [name] ++ [Percent.encode staysInPath text.toList] := by
      rw [url]
      show resolve _ _ = _
      rw [segment.splitSegments_eq, segment.resolve_eq, List.reverse_cons]
    have query : r.url.query = none := by
      rw [url]
      show readQuery _ _ = none
      rw [segment.tidy_eq, List.dropWhile_eq_nil_iff.mpr segment.endsPath_eq]
      rfl
    have nonempty : text.toList ≠ [] := fun empty =>
      segment.nonempty (String.toList_inj.mp empty)
    refine ⟨⟨Percent.encode staysInPath text.toList, Percent.encode_ne_nil nonempty, ?_, ?_, ?_⟩,
      query⟩
    · exact slash_not_mem_encode fun mem => segment.plain '/' mem (by decide)
    · rw [target_of_query_eq_none query, path, start, writePath_concat, ← String.ofList_append,
        List.append_assoc, List.singleton_append]
    · rw [Percent.decodeText?_eq_some_iff, Percent.decode_encode keepsEscapes_staysInPath,
        Percent.decode_eq_utf8_iff]
      exact segment.noEscape

end Root

/-- **A target addresses one text only.** -/
theorem Addresses.unique {root : Url} {directory text text' : String} {r r' : Request}
    (addresses : Addresses root directory text r) (addresses' : Addresses root directory text' r')
    (same : r.url.target = r'.url.target) : text = text' := by
  obtain ⟨segment, -, -, target, decoded⟩ := addresses.segment
  obtain ⟨segment', -, -, target', decoded'⟩ := addresses'.segment
  rw [target, target'] at same
  have eq : segment = segment' := by
    have lists := congrArg String.toList same
    simp only [String.toList_append, String.toList_ofList] at lists
    exact List.append_cancel_left lists
  subst eq
  exact Option.some.inj (decoded.symm.trans decoded')

/-- What is addressed in a directory is not the directory. -/
theorem Addresses.target_ne {root : Url} {directory text : String} {r : Request}
    (addresses : Addresses root directory text r) : r.url.target ≠ root.target ++ directory := by
  obtain ⟨segment, nonempty, -, target, -⟩ := addresses.segment
  intro same
  rw [target] at same
  have lists := congrArg String.toList same
  rw [String.toList_append, String.toList_ofList] at lists
  exact nonempty (List.append_right_eq_self.mp lists)

/-- The collection has the directory itself as its target. -/
theorem IsRoot.target_eq {base : String} {root u : Url} {directory : String} {name : List Char}
    (isRoot : IsRoot base root) (isDirectory : IsDirectory directory name)
    (parsed : Url.parse (base ++ directory) = .ok u) : u.target = root.target ++ directory := by
  obtain ⟨done, start, parse⟩ := isRoot.parse_eq isDirectory
  have empty := parse ""
  rw [String.append_empty] at empty
  rw [Except.ok.inj (parsed.symm.trans empty), target_of_query_eq_none rfl, start]
  -- The empty text after the directory leaves an empty segment.
  have path : resolve (name :: done) [[]] = ([] :: name :: done).reverse := rfl
  show String.ofList (writePath (resolve (name :: done) [[]])) = _
  rw [path, List.reverse_cons, List.reverse_cons, writePath_concat]

/-! ## Requests -/

namespace IsAbout

variable {call : Call} {directory text : String}

theorem path_eq (about : IsAbout call directory text) :
    Client.path call = directory ++ text := by
  cases about <;> rfl

theorem pairs_eq (about : IsAbout call directory text) : Client.pairs call = [] := by
  cases about <;> rfl

theorem exists_isDirectory (about : IsAbout call directory text) :
    ∃ name, IsDirectory directory name := by
  cases about with
  | update => exact ⟨_, isDirectory_sessions⟩
  | unlist => exact ⟨_, isDirectory_sessions⟩
  | roomCode => exact ⟨_, isDirectory_join⟩

end IsAbout

section Requests

variable {c : Client} {root : Url} {call : Call} {r : Request}

theorem url_eq_of_pairs_eq_nil (pairs : Client.pairs call = []) :
    c.url call = Url.parse (c.baseUrl ++ Client.path call) := by
  rw [Client.url, Client.urlText]
  cases Url.parse (c.baseUrl ++ Client.path call) with
  | error e => rfl
  | ok u => exact congrArg Except.ok (if_pos pairs)

theorem url_eq_of_request? (request : c.request? call = some r) : c.url call = .ok r.url := by
  rw [Client.request?] at request
  split at request
  next => cases request
  next u url =>
    split at request
    next =>
      cases request
      exact url
    next => cases request

/-- A request is sent for every URL of a web address, if its key is a header value. -/
theorem exists_request?_eq {u : Url} (url : c.url call = .ok u) (http : u.isHttp = true)
    (key : (Client.updateKey call).all isHeaderValue = true) :
    ∃ r, c.request? call = some r ∧ r.url = u := by
  refine ⟨⟨Client.method call, u, c.http.userAgent, Client.updateKey call, Client.body call⟩, ?_,
    rfl⟩
  rw [Client.request?, url]
  simp only [http, key, Bool.and_self, if_true]

/-- **What the requests of a client address.** -/
structure Addressing (c : Client) (root : Url) : Prop where
  /-- Every call about a text can be sent, and it addresses the text if and only if the text reads
  the same as a segment. -/
  exact : ∀ call directory text, IsAbout call directory text →
    (Client.updateKey call).all isHeaderValue = true →
    ∃ r, c.request? call = some r ∧ (Addresses root directory text r ↔ IsSegment text)
  /-- Different texts of that kind are addressed by different targets. -/
  apart : ∀ call call' directory text text' r r', IsAbout call directory text →
    IsAbout call' directory text' → IsSegment text → IsSegment text' →
    c.request? call = some r → c.request? call' = some r' → r.url.target = r'.url.target →
    text = text'
  /-- None of them is addressed by the target of a batch. -/
  single : ∀ call text batch r r', IsAbout call "sessions/" text → IsSegment text →
    c.request? call = some r → c.request? (.batchUpdate batch) = some r' →
    r.url.target ≠ r'.url.target

theorem IsRoot.addressing (isRoot : IsRoot c.baseUrl root) : Addressing c root := by
  -- A request about a text addresses it if the text is a segment, however it came to be sent.
  have addresses : ∀ {call directory text r}, IsAbout call directory text →
      c.request? call = some r → (Addresses root directory text r ↔ IsSegment text) := by
    intro call directory text r about request
    obtain ⟨name, isDirectory⟩ := about.exists_isDirectory
    refine addresses_iff isRoot isDirectory ?_
    rw [← about.path_eq, ← url_eq_of_pairs_eq_nil about.pairs_eq]
    exact url_eq_of_request? request
  refine ⟨?_, ?_, ?_⟩
  · intro call directory text about key
    obtain ⟨name, isDirectory⟩ := about.exists_isDirectory
    obtain ⟨done, -, parse⟩ := isRoot.parse_eq isDirectory
    have url := url_eq_of_pairs_eq_nil (c := c) about.pairs_eq
    rw [about.path_eq, parse text] at url
    obtain ⟨r, request, -⟩ := exists_request?_eq url isRoot.http key
    exact ⟨r, request, addresses about request⟩
  · intro call call' directory text text' r r' about about' segment segment' request request' same
    exact ((addresses about request).mpr segment).unique ((addresses about' request').mpr segment')
      same
  · intro call text batch r r' about segment request request' same
    have collection : r'.url.target = root.target ++ "sessions/" := by
      have url : c.url (.batchUpdate batch) = Url.parse (c.baseUrl ++ "sessions/") :=
        url_eq_of_pairs_eq_nil (show Client.pairs (.batchUpdate batch) = [] from rfl)
      exact isRoot.target_eq isDirectory_sessions (url.symm.trans (url_eq_of_request? request'))
    exact ((addresses about request).mpr segment).target_ne (same.trans collection)

end Requests

theorem mem_normalizeBaseUrl {url : String} {x : Char}
    (mem : x ∈ (normalizeBaseUrl url).toList) : x ∈ url.toList ∨ x = '/' := by
  rw [normalizeBaseUrl] at mem
  split at mem
  · exact .inl mem
  · rw [String.toList_append] at mem
    exact (List.mem_append.mp mem).imp_right List.mem_singleton.mp

theorem getLast?_normalizeBaseUrl (url : String) :
    (normalizeBaseUrl url).toList.getLast? = some '/' := by
  rw [normalizeBaseUrl]
  split
  next slash => exact slash
  next =>
    rw [String.toList_append]
    exact List.getLast?_concat

/-- **The rules hold of every client of a web address** without query and fragment. -/
theorem addressing_of_new {url : String} {http : HttpConfig} {c : Client} {root : Url}
    (opened : Client.new url http = .ok c) (parsed : Url.parse c.baseUrl = .ok root)
    (isHttp : root.isHttp = true) (noQuery : '?' ∉ url.toList) (noFragment : '#' ∉ url.toList) :
    Addressing c root := by
  have base : c.baseUrl = normalizeBaseUrl url := by
    rw [Client.new] at opened
    split at opened
    next => cases opened
    next =>
      split at opened
      next =>
        cases opened
        rfl
      next => cases opened
  refine IsRoot.addressing ⟨parsed, isHttp, ?_, ?_, ?_⟩
  · rw [base]
    exact getLast?_normalizeBaseUrl url
  · rw [base]
    intro mem
    exact (mem_normalizeBaseUrl mem).elim noQuery (by decide)
  · rw [base]
    intro mem
    exact (mem_normalizeBaseUrl mem).elim noFragment (by decide)

/-! ## A client -/

/-- A client of an API below a path. -/
def hostClient : Client := ⟨"http://host/api/", {}⟩

/-- The root of that API. -/
def hostRoot : Url := ⟨"http", some (.domain "host"), none, ["api".toList, []], true, none⟩

theorem addressing_hostClient :
    Client.new "http://host/api" {} = .ok hostClient ∧
      Url.parse hostClient.baseUrl = .ok hostRoot ∧ hostRoot.isHttp = true ∧
      Addressing hostClient hostRoot := by
  have opened : Client.new "http://host/api" {} = .ok hostClient := by decide
  have parsed : Url.parse hostClient.baseUrl = .ok hostRoot := by decide
  refine ⟨opened, parsed, by decide, ?_⟩
  exact addressing_of_new opened parsed (by decide) (by decide) (by decide)

/-- **A text with a slash is not addressed**: it makes two segments. The empty text is addressed by
the target of a batch, and two texts may have one target. -/
theorem not_addresses_of_slash :
    (∃ r, hostClient.request? (.update (.text "a/b") "key" SortedMap.empty) = some r ∧
      r.url.target = "/api/sessions/a/b" ∧ ¬ Addresses hostRoot "sessions/" "a/b" r) ∧
    (∃ r r', hostClient.request? (.update (.text "") "key" SortedMap.empty) = some r ∧
      hostClient.request? (.batchUpdate SortedMap.empty) = some r' ∧
      r.url.target = r'.url.target) ∧
    ∃ r r', hostClient.request? (.unlist (.text "./b") "key") = some r ∧
      hostClient.request? (.unlist (.text "b") "key") = some r' ∧
      r.url.target = r'.url.target := by
  refine ⟨⟨_, rfl, by decide, fun addresses => ?_⟩, ⟨_, _, rfl, rfl, by decide⟩,
    _, _, rfl, rfl, by decide⟩
  have isRoot : IsRoot "http://host/api/" hostRoot :=
    ⟨by decide, by decide, by decide, by decide, by decide⟩
  have parsed : Url.parse ("http://host/api/" ++ ("sessions/" ++ "a/b")) = .ok
      { hostRoot with path := ["api".toList, "sessions".toList, "a".toList, "b".toList] } := by
    decide
  have segment := (addresses_iff isRoot isDirectory_sessions parsed).mp addresses
  exact segment.plain '/' (by decide) (by decide)

end SessionDirectory
