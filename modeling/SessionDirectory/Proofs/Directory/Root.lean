import SessionDirectory.Proofs.Directory.Addressing

/-!
# Requests under the root of an API

The text of a root gets a slash at its end, and the path of a call is put after it. As long as the
text ends with a path, that makes a path under the path of the root. Behind a query or a fragment
both become a part of that one, and whatever is asked for, the request goes to the path of the root
itself.

## Main definitions

* `Url.pathText`: the path of a URL as it is sent
* `IsCollective`: the calls that are about no listing in particular
* `UnderRoot`: the requests of a client lie under a root

## Main results

* `path_eq_of_mark`: behind a query or a fragment every request goes to the path of the root
* `underRoot_iff_of_new`: the requests lie under the root if its text has neither of them
* `not_underRoot_of_mark`: a root with a query, and one with a fragment
-/

set_option autoImplicit false

namespace SessionDirectory

open Url

/-- The path of a URL as it is sent. -/
def Url.pathText (u : Url) : String := String.ofList (writePath u.path)

/-- The calls about the collection of all listings. -/
inductive IsCollective : Call → Prop
  | announce (session : Announcement) : IsCollective (.announce session)
  | query (q : SessionQuery) : IsCollective (.query q)
  | batchUpdate (batch : BatchUpdate) : IsCollective (.batchUpdate batch)

/-- A text of decimal digits. -/
structure IsDecimal (text : String) : Prop where
  nonempty : text ≠ ""
  digits : ∀ c ∈ text.toList, c.isDigit = true

/-- A call is sent to a path on the server of a root. -/
def SentTo (c : Client) (root : Url) (call : Call) (path : String) : Prop :=
  ∃ r segments query, c.request? call = some r ∧
    r.url = { root with path := segments, query := query } ∧ r.url.pathText = path

/-- **The requests of a client lie under a root**, whose path ends with a slash. -/
structure UnderRoot (c : Client) (root : Url) : Prop where
  separator : root.pathText.toList.getLast? = some '/'
  collection : ∀ call, IsCollective call → SentTo c root call (root.pathText ++ "sessions/")
  listing : ∀ call text, IsAbout call "sessions/" text → IsDecimal text →
    (Client.updateKey call).all isHeaderValue = true →
    SentTo c root call (root.pathText ++ "sessions/" ++ text)

/-! ## Decimal texts -/

section Decimal

variable {text : String}

theorem IsDecimal.ne_of_mem (decimal : IsDecimal text) {c d : Char} (mem : c ∈ text.toList)
    (other : d.isDigit = false) : c ≠ d := by
  rintro rfl
  rw [decimal.digits c mem] at other
  cases other

/-- A decimal text reads the same as a segment of a path. -/
theorem IsDecimal.isSegment (decimal : IsDecimal text) : IsSegment text := by
  refine ⟨decimal.nonempty, ?_, ?_, fun c mem => ?_, fun c last => ?_, fun high low part => ?_⟩
  · rintro rfl
    exact decimal.ne_of_mem (c := '.') (by decide) (by decide) rfl
  · rintro rfl
    exact decimal.ne_of_mem (c := '.') (by decide) (by decide) rfl
  · simp only [List.mem_cons, List.not_mem_nil, or_false, not_or]
    refine ⟨?_, ?_, ?_, ?_, ?_, ?_, ?_⟩ <;> exact decimal.ne_of_mem mem (by decide)
  · have digit := Char.isDigit_iff_toNat.mp (decimal.digits c (List.mem_of_getLast? last))
    have zero : '0'.toNat = 0x30 := rfl
    omega
  · have mem : '%' ∈ text.toList := part.subset List.mem_cons_self
    exact absurd rfl (decimal.ne_of_mem mem (by decide))

theorem staysInPath_of_isDigit {c : Char} (digit : c.isDigit = true) : staysInPath c = true := by
  have range : '0' ≤ c ∧ c ≤ '9' := by
    simpa [Char.isDigit, Char.le_def] using digit
  refine keepsEscapes_staysInPath.digit c ?_
  rw [Percent.hexValue?, if_pos range]
  rfl

theorem IsDecimal.encode_eq (decimal : IsDecimal text) :
    Percent.encode staysInPath text.toList = text.toList := by
  have each : ∀ c ∈ text.toList,
      (if staysInPath c then [c] else Percent.encodeChar c) = [c] :=
    fun c mem => if_pos (staysInPath_of_isDigit (decimal.digits c mem))
  rw [Percent.encode, List.flatMap_congr each, List.flatMap_singleton']

end Decimal

/-! ## Roots -/

section Root

variable {base text : String} {root : Url} {c : Client} {call : Call}

theorem IsRoot.query_eq (isRoot : IsRoot base root) : root.query = none :=
  (parse_append isRoot.parsed isRoot.http isRoot.slash isRoot.noQuery isRoot.noFragment).1

/-- The path of a root ends with a slash. -/
theorem IsRoot.separator (isRoot : IsRoot base root) :
    root.pathText.toList.getLast? = some '/' := by
  obtain ⟨-, done, path, -⟩ := parse_append isRoot.parsed isRoot.http isRoot.slash isRoot.noQuery
    isRoot.noFragment
  rw [pathText, String.toList_ofList, path, writePath_concat, List.getLast?_concat]

/-- **The URLs of the collection and of a segment in it.** -/
theorem IsRoot.parse_sessions (isRoot : IsRoot base root) :
    ∃ collection : List (List Char),
      String.ofList (writePath (collection ++ [[]])) = root.pathText ++ "sessions/" ∧
      Url.parse (base ++ "sessions/") =
        .ok { root with path := collection ++ [[]], query := none } ∧
      ∀ text, IsSegment text → Url.parse (base ++ ("sessions/" ++ text)) = .ok { root with
        path := collection ++ [Percent.encode staysInPath text.toList]
        query := none } := by
  obtain ⟨done, start, parse⟩ := isRoot.parse_eq isDirectory_sessions
  refine ⟨done.reverse ++ ["sessions".toList], ?_, ?_, fun text segment => ?_⟩
  · rw [writePath_concat, ← start, target_of_query_eq_none isRoot.query_eq, pathText]
  · -- The empty text after the directory leaves an empty segment.
    have empty := parse ""
    rw [String.append_empty] at empty
    rw [empty]
    have path : resolve ("sessions".toList :: done) [[]] =
        ([] :: "sessions".toList :: done).reverse := rfl
    rw [← List.reverse_cons, ← List.reverse_cons, ← path]
    rfl
  · rw [parse, segment.splitSegments_eq, segment.resolve_eq, List.reverse_cons, segment.tidy_eq,
      List.dropWhile_eq_nil_iff.mpr segment.endsPath_eq]
    rfl

theorem IsCollective.path_eq (collective : IsCollective call) :
    Client.path call = "sessions/" := by
  cases collective <;> rfl

theorem IsCollective.updateKey_eq (collective : IsCollective call) :
    Client.updateKey call = none := by
  cases collective <;> rfl

/-- The pairs of a query leave the path of its URL. -/
theorem exists_url_eq {u : Url} (parsed : Url.parse (c.baseUrl ++ Client.path call) = .ok u) :
    ∃ query, c.url call = .ok { u with query := query } := by
  rw [Client.url, Client.urlText, parsed]
  by_cases pairs : Client.pairs call = []
  · exact ⟨u.query, congrArg Except.ok (if_pos pairs)⟩
  · exact ⟨_, congrArg Except.ok (if_neg pairs)⟩

theorem sentTo_of_parse {segments : List (List Char)} {query : Option (List Char)}
    (http : root.isHttp = true)
    (parsed : Url.parse (c.baseUrl ++ Client.path call) =
      .ok { root with path := segments, query := query })
    (key : (Client.updateKey call).all isHeaderValue = true) :
    SentTo c root call (String.ofList (writePath segments)) := by
  obtain ⟨query', url⟩ := exists_url_eq parsed
  obtain ⟨r, request, same⟩ := exists_request?_eq url http key
  exact ⟨r, segments, query', request, same, by rw [pathText, same]⟩

/-- **Requests lie under a root without query and fragment.** -/
theorem IsRoot.underRoot (isRoot : IsRoot c.baseUrl root) : UnderRoot c root := by
  obtain ⟨collection, start, parsed, parse⟩ := isRoot.parse_sessions
  refine ⟨isRoot.separator, fun call collective => ?_, fun call text about decimal key => ?_⟩
  · rw [← collective.path_eq] at parsed
    rw [← start]
    exact sentTo_of_parse isRoot.http parsed (by rw [collective.updateKey_eq]; rfl)
  · have parsed := parse text decimal.isSegment
    rw [← about.path_eq, decimal.encode_eq] at parsed
    -- The digits come where the collection has its empty segment.
    have path : String.ofList (writePath (collection ++ [text.toList])) =
        root.pathText ++ "sessions/" ++ text := by
      rw [← start, writePath_concat, writePath_concat, ← String.toList_inj]
      simp
    rw [← path]
    exact sentTo_of_parse isRoot.http parsed key

/-- **Behind a query or a fragment every request goes to the path of the root**, whatever it asks
for. -/
theorem path_eq_of_mark (parsed : Url.parse c.baseUrl = .ok root) (http : root.isHttp = true)
    (slash : c.baseUrl.toList.getLast? = some '/') {mark : Char} (ends : endsPath mark = true)
    (mem : mark ∈ c.baseUrl.toList) {r : Request} (request : c.request? call = some r) :
    r.url.pathText = root.pathText := by
  obtain ⟨u, whole, path⟩ :=
    exists_parse_append_of_mark parsed http slash ends mem (Client.path call)
  obtain ⟨query, url⟩ := exists_url_eq whole
  have same := Except.ok.inj ((url_eq_of_request? request).symm.trans url)
  rw [pathText, pathText, same, ← path]

end Root

/-! ## Clients -/

section Clients

variable {url : String} {http : HttpConfig} {c : Client} {root : Url}

theorem Client.new_eq_ok_iff : Client.new url http = .ok c ↔
    c = ⟨normalizeBaseUrl url, http⟩ ∧ (∃ root, Url.parse (normalizeBaseUrl url) = .ok root) ∧
      isHeaderValue http.userAgent = true := by
  rw [Client.new]
  cases parsed : Url.parse (normalizeBaseUrl url) with
  | error e => simp
  | ok root =>
    by_cases agent : isHeaderValue http.userAgent = true
    · simp [agent, eq_comm]
    · simp [agent]

theorem normalizeBaseUrl_of_slash (slash : url.toList.getLast? = some '/') :
    normalizeBaseUrl url = url := if_pos slash

theorem normalizeBaseUrl_idem (url : String) :
    normalizeBaseUrl (normalizeBaseUrl url) = normalizeBaseUrl url :=
  normalizeBaseUrl_of_slash (getLast?_normalizeBaseUrl url)

/-- The text of a root gets no query and no fragment that was not given. -/
theorem mem_normalizeBaseUrl_iff {mark : Char} (other : mark ≠ '/') :
    mark ∈ (normalizeBaseUrl url).toList ↔ mark ∈ url.toList := by
  constructor
  · intro mem
    exact (mem_normalizeBaseUrl mem).resolve_right other
  · intro mem
    rw [normalizeBaseUrl]
    split
    · exact mem
    · rw [String.toList_append]
      exact List.mem_append_left _ mem

/-- The root of a client of a plain web address. -/
theorem isRoot_of_new (opened : Client.new url http = .ok c) (parsed : Url.parse c.baseUrl = .ok root)
    (isHttp : root.isHttp = true) (noQuery : '?' ∉ url.toList) (noFragment : '#' ∉ url.toList) :
    IsRoot c.baseUrl root := by
  obtain ⟨rfl, -, -⟩ := Client.new_eq_ok_iff.mp opened
  refine ⟨parsed, isHttp, getLast?_normalizeBaseUrl url, ?_, ?_⟩
  · rwa [mem_normalizeBaseUrl_iff (by decide)]
  · rwa [mem_normalizeBaseUrl_iff (by decide)]

/-- A client of the root URL of a client is that client. -/
theorem Client.new_baseUrl (opened : Client.new url http = .ok c) :
    Client.new c.baseUrl http = .ok c := by
  obtain ⟨rfl, parses, agent⟩ := Client.new_eq_ok_iff.mp opened
  refine Client.new_eq_ok_iff.mpr ⟨?_, ?_, agent⟩
  · exact congrArg (Client.mk · http) (normalizeBaseUrl_idem url).symm
  · rwa [normalizeBaseUrl_idem]

/-- **The requests of a client lie under its root** if and only if the root was given without query
and fragment. In any case its root URL makes the same client again. -/
theorem underRoot_iff_of_new (opened : Client.new url http = .ok c)
    (parsed : Url.parse c.baseUrl = .ok root) (isHttp : root.isHttp = true) :
    (UnderRoot c root ↔ '?' ∉ url.toList ∧ '#' ∉ url.toList) ∧
      Client.new c.baseUrl http = .ok c := by
  refine ⟨?_, Client.new_baseUrl opened⟩
  -- The slash is the only character that the text of the root may get.
  obtain ⟨rfl, -, -⟩ := Client.new_eq_ok_iff.mp opened
  have slash := getLast?_normalizeBaseUrl url
  constructor
  · intro under
    -- Already an announcement would go astray.
    have plain : ∀ mark, endsPath mark = true → mark ∉ (normalizeBaseUrl url).toList := by
      intro mark ends mem
      obtain ⟨r, -, -, request, -, path⟩ :=
        under.collection _ (.announce (.ofDefaults {} ""))
      rw [path_eq_of_mark parsed isHttp slash ends mem request, ← String.toList_inj,
        String.toList_append] at path
      exact absurd (List.self_eq_append_right.mp path) (by decide)
    constructor
    · rw [← mem_normalizeBaseUrl_iff (by decide)]
      exact plain '?' rfl
    · rw [← mem_normalizeBaseUrl_iff (by decide)]
      exact plain '#' rfl
  · rintro ⟨noQuery, noFragment⟩
    refine IsRoot.underRoot ⟨parsed, isHttp, slash, ?_, ?_⟩
    · rwa [mem_normalizeBaseUrl_iff (by decide)]
    · rwa [mem_normalizeBaseUrl_iff (by decide)]

end Clients

/-- The requests of a client of a plain root lie under it. -/
theorem underRoot_hostClient :
    Client.new "http://host/api" {} = .ok hostClient ∧
      Url.parse hostClient.baseUrl = .ok hostRoot ∧ hostRoot.isHttp = true ∧
      UnderRoot hostClient hostRoot ∧ Client.new hostClient.baseUrl {} = .ok hostClient := by
  have opened : Client.new "http://host/api" {} = .ok hostClient := by decide
  have parsed : Url.parse hostClient.baseUrl = .ok hostRoot := by decide
  obtain ⟨under, again⟩ := underRoot_iff_of_new opened parsed (by decide)
  exact ⟨opened, parsed, by decide, under.mpr (by decide), again⟩

/-- **A client of a root with a fragment** sends a batch to the path of the root, and so does one of
a root with a query. -/
theorem not_underRoot_of_mark :
    (∃ c root, Client.new "http://host/api/#v1" {} = .ok c ∧ Url.parse c.baseUrl = .ok root ∧
      root.isHttp = true ∧ root.pathText = "/api/" ∧ ¬ UnderRoot c root ∧
      ∃ r, c.request? (.batchUpdate SortedMap.empty) = some r ∧ r.url.target = "/api/") ∧
    ∃ c root, Client.new "http://host/api?x=1" {} = .ok c ∧ Url.parse c.baseUrl = .ok root ∧
      root.isHttp = true ∧ root.pathText = "/api" ∧ ¬ UnderRoot c root ∧
      ∃ r, c.request? (.batchUpdate SortedMap.empty) = some r ∧
        r.url.target = "/api?x=1/sessions/" := by
  refine ⟨⟨⟨"http://host/api/#v1/", {}⟩, hostRoot, by decide, by decide, by decide, by decide, ?_,
      _, rfl, by decide⟩,
    ⟨"http://host/api?x=1/", {}⟩, { hostRoot with path := ["api".toList], query := "x=1/".toList },
      by decide, by decide, by decide, by decide, ?_, _, rfl, by decide⟩
  · intro under
    obtain ⟨r, -, -, request, -, path⟩ := under.collection _ (.batchUpdate SortedMap.empty)
    cases request
    exact absurd path (by decide)
  · intro under
    exact absurd under.separator (by decide)

end SessionDirectory
