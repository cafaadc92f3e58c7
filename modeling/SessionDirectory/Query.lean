/-!
# Queries of the public list

## Main definitions

* `SessionQuery`: the filters
* `SessionQuery.pairs`: the filters as names and values, in the order in which they are sent
-/

set_option autoImplicit false

namespace SessionDirectory

/-- Filters of the public list. -/
structure SessionQuery where
  /-- Whether sessions tagged as not suitable for minors are wanted. -/
  nsfm : Bool := false
  /-- Protocol versions, separated by commas. -/
  protocol : Option String := none
  /-- A part of the title. -/
  title : Option String := none
  deriving DecidableEq

/-- The filters as pairs; an absent filter is sent as an empty value. -/
def SessionQuery.pairs (q : SessionQuery) : List (String × String) :=
  [("protocol", q.protocol.getD ""), ("title", q.title.getD ""),
    ("nsfm", if q.nsfm then "true" else "false")]

end SessionDirectory
