import SessionDirectory.Proofs.Directory.Root
import SessionDirectory.Proofs.Url.Form

/-!
# What queries ask for

The filters of a query are sent as the pairs of its URL, and no text in a filter is taken for a mark
between the pairs. Whoever reads the target of the request finds every filter as it was given. A
filter that is absent is found empty, and that is all in which two queries of one target may differ.

## Main definitions

* `Url.readTarget`: the path and the query of a target
* `SessionQuery.Alike`: two queries differ at most in absent and empty filters
* `Asks`: a request asks for the sessions of a query
* `Asking`: what the queries of a client ask for

## Main results

* `IsRoot.exists_asks`: every query is asked
* `Asks.alike`: what a target asks for
* `asking_of_new`: the rules hold of every client of a web address
-/

set_option autoImplicit false

namespace SessionDirectory

open Url

/-- The path and the query of a target: what stands before its first question mark, and after it. -/
def Url.readTarget (target : String) : String × List Char :=
  (String.ofList (target.toList.takeWhile (· ≠ '?')), (target.toList.dropWhile (· ≠ '?')).drop 1)

/-- **Two queries differ at most in absent and empty filters.** -/
structure SessionQuery.Alike (q q' : SessionQuery) : Prop where
  nsfm : q.nsfm = q'.nsfm
  protocol : q.protocol.getD "" = q'.protocol.getD ""
  title : q.title.getD "" = q'.title.getD ""

/-- **A request asks for the sessions of a query** below a root: its target is read as the path of
the collection and the three filters. -/
structure Asks (root : Url) (q : SessionQuery) (r : Request) : Prop where
  method : r.method = "GET"
  server : r.url = { root with path := r.url.path, query := r.url.query }
  path : (readTarget r.url.target).1 = root.pathText ++ "sessions/"
  query : r.url.query = some (readTarget r.url.target).2
  filters : Form.decodePairs (readTarget r.url.target).2 = some
    [("protocol", q.protocol.getD ""), ("title", q.title.getD ""),
      ("nsfm", if q.nsfm then "true" else "false")]

/-- **What the queries of a client ask for.** -/
structure Asking (c : Client) (root : Url) : Prop where
  /-- Every query is sent, and its request asks for it. -/
  asked : ∀ q, ∃ r, c.request? (.query q) = some r ∧ Asks root q r
  /-- Only queries that are alike have one target. -/
  apart : ∀ q q' r r', c.request? (.query q) = some r → c.request? (.query q') = some r' →
    (r.url.target = r'.url.target ↔ q.Alike q')

/-! ## Targets -/

/-- A target is read as the path and the query of its URL. -/
theorem readTarget_target {u : Url} {query : List Char} (asks : u.query = some query)
    (plain : '?' ∉ writePath u.path) : readTarget u.target = (u.pathText, query) := by
  have passes : ∀ c ∈ writePath u.path, decide (c ≠ '?') = true := by
    intro c mem
    rw [decide_eq_true_eq]
    rintro rfl
    exact plain mem
  rw [readTarget, target, asks, String.toList_ofList, List.takeWhile_append_of_pos passes,
    List.dropWhile_append_of_pos passes, pathText]
  simp

/-- No question mark stands in a path. -/
theorem mark_not_mem_writePath {base : String} {u : Url} (parsed : Url.parse base = .ok u)
    (web : SchemeKind.of u.scheme = .web) : '?' ∉ writePath u.path := by
  intro mem
  obtain ⟨segment, listed, part⟩ := List.mem_flatMap.mp mem
  have part := (List.mem_cons.mp part).resolve_left (by decide)
  exact absurd (staysInPath_of_mem_path parsed web listed part) (by decide)

/-! ## Queries -/

section Queries

variable {c : Client} {root : Url} {q q' : SessionQuery} {r r' : Request}

theorem method_eq_of_request? {call : Call} (request : c.request? call = some r) :
    r.method = Client.method call := by
  rw [Client.request?] at request
  split at request
  next => cases request
  next =>
    split at request
    next =>
      cases request
      rfl
    next => cases request

theorem SessionQuery.Alike.pairs_eq (alike : q.Alike q') : q.pairs = q'.pairs := by
  rw [pairs, pairs, alike.nsfm, alike.protocol, alike.title]

/-- **What a target asks for** is told by the target. -/
theorem Asks.alike (asks : Asks root q r) (asks' : Asks root q' r')
    (same : r.url.target = r'.url.target) : q.Alike q' := by
  have filters := asks.filters
  rw [same, asks'.filters, Option.some.injEq] at filters
  simp only [List.cons.injEq, Prod.mk.injEq, true_and, and_true] at filters
  obtain ⟨protocol, title, nsfm⟩ := filters
  refine ⟨?_, protocol.symm, title.symm⟩
  -- The two texts of the flag are different.
  cases on : q.nsfm <;> cases on' : q'.nsfm <;> simp [on, on'] at nsfm ⊢

/-- The URL of a query is that of the collection, with the pairs of the query. -/
theorem IsRoot.exists_url_query_eq (isRoot : IsRoot c.baseUrl root) :
    ∃ collection : Url, Url.parse (c.baseUrl ++ "sessions/") = .ok collection ∧
      collection.pathText = root.pathText ++ "sessions/" ∧
      (∃ segments, collection = { root with path := segments, query := none }) ∧
      ∀ q, c.url (.query q) = .ok (collection.withPairs q.pairs) := by
  obtain ⟨segments, start, parsed, -⟩ := isRoot.parse_sessions
  refine ⟨_, parsed, start, ⟨_, rfl⟩, fun q => ?_⟩
  have collection : Url.parse (c.urlText (Client.path (.query q))) = _ := parsed
  rw [Client.url, collection]
  exact congrArg Except.ok (if_neg (List.cons_ne_nil _ _))

/-- **Every query is asked.** -/
theorem IsRoot.exists_asks (isRoot : IsRoot c.baseUrl root) (q : SessionQuery) :
    ∃ r, c.request? (.query q) = some r ∧ Asks root q r := by
  obtain ⟨collection, parsed, path, ⟨segments, rfl⟩, urls⟩ := isRoot.exists_url_query_eq
  have http := isRoot.http
  have plain := mark_not_mem_writePath parsed (kind_eq_web_of_isHttp http)
  obtain ⟨r, request, url⟩ := exists_request?_eq (urls q) http rfl
  have read : readTarget r.url.target =
      (root.pathText ++ "sessions/", Form.encodePairs q.pairs) := by
    rw [url, ← path]
    exact readTarget_target rfl plain
  refine ⟨r, request, method_eq_of_request? request, ?_, ?_, ?_, ?_⟩
  · rw [url]
    rfl
  · rw [read]
  · rw [read, url]
    rfl
  · rw [read]
    exact Form.decodePairs_encodePairs q.pairs

theorem IsRoot.asking (isRoot : IsRoot c.baseUrl root) : Asking c root := by
  refine ⟨isRoot.exists_asks, fun q q' r r' request request' => ?_⟩
  constructor
  · intro same
    obtain ⟨s, sent, asks⟩ := isRoot.exists_asks q
    obtain ⟨s', sent', asks'⟩ := isRoot.exists_asks q'
    obtain rfl := Option.some.inj (request.symm.trans sent)
    obtain rfl := Option.some.inj (request'.symm.trans sent')
    exact asks.alike asks' same
  · intro alike
    obtain ⟨collection, -, -, -, urls⟩ := isRoot.exists_url_query_eq
    have url := Except.ok.inj ((url_eq_of_request? request).symm.trans (urls q))
    have url' := Except.ok.inj ((url_eq_of_request? request').symm.trans (urls q'))
    rw [url, url', alike.pairs_eq]

end Queries

/-- **No filter leaks into another**, whatever texts are asked for, with every client of a web
address without query and fragment. -/
theorem asking_of_new {url : String} {http : HttpConfig} {c : Client} {root : Url}
    (opened : Client.new url http = .ok c) (parsed : Url.parse c.baseUrl = .ok root)
    (isHttp : root.isHttp = true) (noQuery : '?' ∉ url.toList) (noFragment : '#' ∉ url.toList) :
    Asking c root :=
  (isRoot_of_new opened parsed isHttp noQuery noFragment).asking

/-- A title that is full of marks, and its target. -/
theorem asking_hostClient :
    Client.new "http://host/api" {} = .ok hostClient ∧
      Url.parse hostClient.baseUrl = .ok hostRoot ∧ hostRoot.isHttp = true ∧
      Asking hostClient hostRoot ∧
      ∃ r, hostClient.request? (.query { title := "a&nsfm=true#+%\n " }) = some r ∧
        r.url.target =
          "/api/sessions/?protocol=&title=a%26nsfm%3Dtrue%23%2B%25%0A+&nsfm=false" := by
  have opened : Client.new "http://host/api" {} = .ok hostClient := by decide
  have parsed : Url.parse hostClient.baseUrl = .ok hostRoot := by decide
  refine ⟨opened, parsed, by decide, ?_, _, rfl, by decide⟩
  exact asking_of_new opened parsed (by decide) (by decide) (by decide)

end SessionDirectory
