import SessionDirectory.Text.Blank
import SessionDirectory.Url.Percent

/-!
# Form encoding

Names and values in the query of a URL: pairs are joined by `&`, name and value by `=`, a space is
written `+`, and all but letters, digits and `*-._` is percent-encoded.

## Main definitions

* `Form.encodePairs`: the query of a list of pairs
* `Form.decodePairs`: the pairs of a query
-/

set_option autoImplicit false

namespace SessionDirectory.Form

/-- The characters that stand for themselves. -/
def staysPlain (c : Char) : Bool :=
  c.isAlphanum || c = '*' || c = '-' || c = '.' || c = '_'

/-- A name or a value. -/
def encode (s : String) : List Char :=
  s.toList.flatMap fun c =>
    if c = ' ' then ['+'] else if staysPlain c then [c] else Percent.encodeChar c

/-- A pair. -/
def encodePair (pair : String × String) : List Char :=
  encode pair.1 ++ '=' :: encode pair.2

/-- The query of a list of pairs. -/
def encodePairs : List (String × String) → List Char
  | [] => []
  | [pair] => encodePair pair
  | pair :: rest => encodePair pair ++ '&' :: encodePairs rest

/-- Adds pairs to a query that may be absent or empty. -/
def appendPairs (query : Option (List Char)) (pairs : List (String × String)) : List Char :=
  match query with
  | none | some [] => encodePairs pairs
  | some query => query ++ '&' :: encodePairs pairs

/-- A name or a value, from its encoded form. -/
def decode? (cs : List Char) : Option String :=
  Percent.decodeText? (cs.map fun c => if c = '+' then ' ' else c)

/-- The parts before and after the first `=`. -/
def splitPair (cs : List Char) : List Char × List Char :=
  (cs.takeWhile (· ≠ '='), (cs.dropWhile (· ≠ '=')).drop 1)

/-- The pairs of a query; nothing when a name or a value is not UTF-8. -/
def decodePairs (query : List Char) : Option (List (String × String)) :=
  ((Text.split '&' query).filter fun part => !part.isEmpty).mapM fun part => do
    let name ← decode? (splitPair part).1
    let value ← decode? (splitPair part).2
    return (name, value)

end SessionDirectory.Form
