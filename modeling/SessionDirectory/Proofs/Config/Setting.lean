import SessionDirectory.Announcement
import SessionDirectory.Config.Resolve
import SessionDirectory.Proofs.Decimal

/-!
# Settings and where they stand in documents

A setting has an option on the command line, an environment variable, a place in the document and a
built-in value, or some of these. What belongs to which setting is written down here, as one
function of settings for each kind of source. The values of all settings are put in the form that
documents have them in, so that one equation is about all of them.

The document is the layer that is settled here: a configuration has the entries of its document, and
what is built in where there is no entry.

## Main definitions

* `Toml.Place`, `Toml.Place.lookup?`: a place in a document, and what stands there
* `Setting`: a value that configures the program or an announcement
* `Setting.option?`, `Setting.fromVariable?`, `Setting.fromMembers?`, `Setting.builtIn`: what its
  sources say
* `Setting.configured`, `Setting.value`: the value of a setting in the outcome

## Main results

* `Toml.Place.lookup?_eq`: the fields of a section are the entries at their places
* `Setting.eq_of_envName?_eq`, `Setting.place?_apart`: no source belongs to two settings
* `Setting.configured_of_ofMembers?`: the settings of a document
-/

set_option autoImplicit false

namespace SessionDirectory

open Toml (Value Members find?)

/-! ## Entries of a document -/

namespace Toml

variable {α : Type} {form : α → Value} {read? : Value → Option α} {absent a : α} {v : Value}

/-- A place in a document: a key of a section, or the position of the key, if the section is an
array. -/
structure Place where
  table : String
  key : String
  position : Nat
  deriving DecidableEq

namespace Place

/-- Two places at which no document has the same entry. -/
def Apart (p q : Place) : Prop :=
  p.table ≠ q.table ∨ p.key ≠ q.key ∧ p.position ≠ q.position

/-- What stands at a place of a section. -/
def inSection? (p : Place) : Value → Option Value
  | .table _ fields => find? p.key fields
  | .array items => items[p.position]?
  | .tables elements => elements.reverse[p.position]?
  | _ => none

/-- What stands at a place of a document. -/
def lookup? (p : Place) (members : Members) : Option Value :=
  (find? p.table members).bind p.inSection?

/-- The entries of a section are what its fields are read from. -/
theorem lookup?_eq {names : List String} {get : String → Option Value} {members : Members}
    (p : Place) (found : find? p.table members = some v)
    (fields : sectionFields? names v = some get) (position : names.idxOf p.key = p.position) :
    p.lookup? members = get p.key := by
  rw [lookup?, found, Option.bind_some]
  cases v <;> cases fields <;> simp only [inSection?, position]

end Place

/-- A reader reads nothing but values of a form. -/
def ReadsForm (form : α → Value) (read? : Value → Option α) : Prop :=
  ∀ v a, read? v = some a → v = form a

theorem readsForm_text? : ReadsForm .string text? := by
  intro v s read
  cases v <;> cases read
  rfl

theorem readsForm_flag? : ReadsForm .boolean flag? := by
  intro v b read
  cases v <;> cases read
  rfl

theorem whole?_eq_some {least greatest n : Int} (read : whole? least greatest v = some n) :
    v = .integer n ∧ least ≤ n ∧ n ≤ greatest := by
  cases v <;> try cases read
  case integer m =>
    obtain ⟨within, same⟩ := Option.ite_none_right_eq_some.mp read
    cases same
    exact ⟨rfl, within⟩

theorem readsForm_uint16? : ReadsForm (fun n : UInt16 => .integer n.toNat) uint16? := by
  intro v n read
  obtain ⟨m, whole, rfl⟩ := Option.map_eq_some_iff.mp read
  obtain ⟨rfl, natural, within⟩ := whole?_eq_some whole
  have small : m.toNat < UInt16.size := show m.toNat < 65536 by omega
  simp only [UInt16.toNat_ofNat_of_lt' small, Int.toNat_of_nonneg natural]

theorem readsForm_uint64? : ReadsForm (fun n : UInt64 => .integer n.toNat) uint64? := by
  intro v n read
  obtain ⟨m, whole, rfl⟩ := Option.map_eq_some_iff.mp read
  obtain ⟨rfl, natural, within⟩ := whole?_eq_some whole
  have small : m.toNat < UInt64.size := show m.toNat < 18446744073709551616 by omega
  simp only [UInt64.toNat_ofNat_of_lt' small, Int.toNat_of_nonneg natural]

theorem readsForm_int64? : ReadsForm (fun n : Int64 => .integer n.toInt) int64? := by
  intro v n read
  obtain ⟨m, whole, rfl⟩ := Option.map_eq_some_iff.mp read
  obtain ⟨rfl, above, below⟩ := whole?_eq_some whole
  simp only [Int64.toInt_ofInt_of_le (show -2 ^ 63 ≤ m by omega) (show m < 2 ^ 63 by omega)]

/-- A field has the form of its entry, or else of its default. -/
theorem form_eq_of_fieldOr {entry : Option Value} (reads : ReadsForm form read?)
    (read : fieldOr absent read? entry = some a) : form a = entry.getD (form absent) := by
  cases entry with
  | none => cases read; rfl
  | some v => exact (reads v a read).symm

end Toml

/-! ## Settings -/

/-- A value that configures the program or an announcement. -/
inductive Setting where
  | host
  | port
  | protocol
  | owner
  | title
  | nsfm
  | isPrivate
  | defaultLease
  | refreshMargin
  | minRefresh
  | unlistOnRefreshFailure
  | connectTimeout
  | timeout
  | userAgent
  deriving DecidableEq

namespace Setting

open Toml (Place)

/-- What the command line says. -/
def option? (options : AnnounceOptions) : Setting → Option Value
  | host => options.host.map .string
  | port => options.port.map fun n => .integer n.toNat
  | protocol => options.protocol.map .string
  | nsfm => some (.boolean options.nsfm)
  | isPrivate => some (.boolean options.isPrivate)
  | _ => none

/-- The environment variable of a setting. -/
def envName? : Setting → Option String
  | host => some "SESSIONLIST_HOST"
  | port => some "SESSIONLIST_PORT"
  | protocol => some "SESSIONLIST_PROTOCOL"
  | owner => some "SESSIONLIST_OWNER"
  | timeout => some "SESSIONLIST_TIMEOUT_SECS"
  | _ => none

/-- What the text of the variable says: the text itself, or the number within a limit that it
denotes. -/
def ofText? : Setting → String → Option Value
  | port, text => numeral? 65535 text
  | timeout, text => numeral? 18446744073709551615 text
  | _, text => some (.string text)
where
  numeral? (limit : Nat) (text : String) : Option Value :=
    ((Decimal.unsigned? text).filter (· ≤ limit)).map fun n : Nat => .integer n

/-- What the environment says. -/
def fromVariable? (env : Environment) (s : Setting) : Option Value := do
  s.ofText? (← env (← s.envName?))

/-- The place of a setting in a document. -/
def place? : Setting → Option Place
  | host => some ⟨"announce", "host", 0⟩
  | port => some ⟨"announce", "port", 1⟩
  | protocol => some ⟨"announce", "protocol", 2⟩
  | owner => some ⟨"announce", "owner", 3⟩
  | title => some ⟨"announce", "title", 4⟩
  | defaultLease => some ⟨"lifecycle", "default_lease_minutes", 0⟩
  | refreshMargin => some ⟨"lifecycle", "refresh_margin_secs", 1⟩
  | minRefresh => some ⟨"lifecycle", "min_refresh_secs", 2⟩
  | unlistOnRefreshFailure => some ⟨"lifecycle", "unlist_on_refresh_failure", 3⟩
  | connectTimeout => some ⟨"http", "connect_timeout_secs", 0⟩
  | timeout => some ⟨"http", "timeout_secs", 1⟩
  | userAgent => some ⟨"http", "user_agent", 2⟩
  | nsfm | isPrivate => none

/-- What the members of a document say. -/
def fromMembers? (members : Members) (s : Setting) : Option Value := do
  (← s.place?).lookup? members

/-- What is built in. -/
def builtIn : Setting → Value
  | host => .string ""
  | port => .integer 27750
  | protocol => .string "dp:4.20.1"
  | owner => .string "tester"
  | title => .string "Test: "
  | nsfm | isPrivate => .boolean false
  | defaultLease => .integer 10
  | refreshMargin | minRefresh => .integer 30
  | unlistOnRefreshFailure => .boolean false
  | connectTimeout => .integer 10
  | timeout => .integer 30
  | userAgent => .string "sessionlist/0.1.0"

/-- The value of a setting in a configuration. -/
def configured (c : Config) : Setting → Value
  | host => .string c.announce.host
  | port => .integer c.announce.port.toNat
  | protocol => .string c.announce.protocol
  | owner => .string c.announce.owner
  | title => .string c.announce.title
  | nsfm | isPrivate => .boolean false
  | defaultLease => .integer c.lifecycle.defaultLeaseMinutes.toInt
  | refreshMargin => .integer c.lifecycle.refreshMarginSecs.toNat
  | minRefresh => .integer c.lifecycle.minRefreshSecs.toNat
  | unlistOnRefreshFailure => .boolean c.lifecycle.unlistOnRefreshFailure
  | connectTimeout => .integer c.http.connectTimeoutSecs.toNat
  | timeout => .integer c.http.timeoutSecs.toNat
  | userAgent => .string c.http.userAgent

/-- The value of a setting in the announcement that is built, or in the configuration where it is
none of the announcement. -/
def value (c : Config) (a : Announcement) : Setting → Value
  | host => .string a.host
  | port => .integer a.port.toNat
  | protocol => .string a.protocol
  | owner => .string a.owner
  | title => .string a.title
  | nsfm => .boolean a.nsfm
  | isPrivate => .boolean a.isPrivate
  | s => s.configured c

variable {s t : Setting} {c : Config} {env : Environment}

theorem configured_builtIn (s : Setting) : s.configured {} = s.builtIn := by
  cases s <;> rfl

/-- No variable belongs to two settings. -/
theorem eq_of_envName?_eq {name : String} (ofS : s.envName? = some name)
    (ofT : t.envName? = some name) : s = t := by
  cases s <;> cases ofS <;> cases t <;> first | rfl | simp [envName?] at ofT

/-- The places of two settings are apart. -/
theorem place?_apart {p q : Place} (ofS : s.place? = some p) (ofT : t.place? = some q)
    (other : s ≠ t) : p.Apart q := by
  unfold Place.Apart
  cases s <;> cases ofS <;> cases t <;> cases ofT <;> first | exact absurd rfl other | decide

/-! ### The document -/

section Document

open Toml

variable {members : Members}

/-- The fields of the section are read from their entries. -/
theorem announce_of_fieldOr {d : AnnounceDefaults}
    (read : fieldOr {} AnnounceDefaults.ofToml? (find? "announce" members) = some d) :
    fieldOr "" text? (Place.lookup? ⟨"announce", "host", 0⟩ members) = some d.host ∧
    fieldOr 27750 uint16? (Place.lookup? ⟨"announce", "port", 1⟩ members) = some d.port ∧
    fieldOr "dp:4.20.1" text? (Place.lookup? ⟨"announce", "protocol", 2⟩ members) =
      some d.protocol ∧
    fieldOr "tester" text? (Place.lookup? ⟨"announce", "owner", 3⟩ members) = some d.owner ∧
    fieldOr "Test: " text? (Place.lookup? ⟨"announce", "title", 4⟩ members) = some d.title := by
  cases found : find? "announce" members with
  | none =>
    rw [found] at read
    cases read
    simp only [Place.lookup?, found]
    exact ⟨rfl, rfl, rfl, rfl, rfl⟩
  | some v =>
    rw [found] at read
    simp only [fieldOr, AnnounceDefaults.ofToml?, Option.bind_eq_bind,
      Option.bind_eq_some_iff] at read
    obtain ⟨get, fields, host, readHost, port, readPort, protocol, readProtocol, owner, readOwner,
      title, readTitle, made⟩ := read
    cases made
    rw [Place.lookup?_eq ⟨"announce", "host", 0⟩ found fields (by decide),
      Place.lookup?_eq ⟨"announce", "port", 1⟩ found fields (by decide),
      Place.lookup?_eq ⟨"announce", "protocol", 2⟩ found fields (by decide),
      Place.lookup?_eq ⟨"announce", "owner", 3⟩ found fields (by decide),
      Place.lookup?_eq ⟨"announce", "title", 4⟩ found fields (by decide)]
    exact ⟨readHost, readPort, readProtocol, readOwner, readTitle⟩

/-- The fields of the section are read from their entries. -/
theorem lifecycle_of_fieldOr {d : LifecycleConfig}
    (read : fieldOr {} LifecycleConfig.ofToml? (find? "lifecycle" members) = some d) :
    fieldOr 10 int64? (Place.lookup? ⟨"lifecycle", "default_lease_minutes", 0⟩ members) =
      some d.defaultLeaseMinutes ∧
    fieldOr 30 uint64? (Place.lookup? ⟨"lifecycle", "refresh_margin_secs", 1⟩ members) =
      some d.refreshMarginSecs ∧
    fieldOr 30 uint64? (Place.lookup? ⟨"lifecycle", "min_refresh_secs", 2⟩ members) =
      some d.minRefreshSecs ∧
    fieldOr false flag? (Place.lookup? ⟨"lifecycle", "unlist_on_refresh_failure", 3⟩ members) =
      some d.unlistOnRefreshFailure := by
  cases found : find? "lifecycle" members with
  | none =>
    rw [found] at read
    cases read
    simp only [Place.lookup?, found]
    exact ⟨rfl, rfl, rfl, rfl⟩
  | some v =>
    rw [found] at read
    simp only [fieldOr, LifecycleConfig.ofToml?, Option.bind_eq_bind,
      Option.bind_eq_some_iff] at read
    obtain ⟨get, fields, lease, readLease, margin, readMargin, least, readLeast, cleanup,
      readCleanup, made⟩ := read
    cases made
    rw [Place.lookup?_eq ⟨"lifecycle", "default_lease_minutes", 0⟩ found fields (by decide),
      Place.lookup?_eq ⟨"lifecycle", "refresh_margin_secs", 1⟩ found fields (by decide),
      Place.lookup?_eq ⟨"lifecycle", "min_refresh_secs", 2⟩ found fields (by decide),
      Place.lookup?_eq ⟨"lifecycle", "unlist_on_refresh_failure", 3⟩ found fields (by decide)]
    exact ⟨readLease, readMargin, readLeast, readCleanup⟩

/-- The fields of the section are read from their entries. -/
theorem http_of_fieldOr {d : HttpConfig}
    (read : fieldOr {} HttpConfig.ofToml? (find? "http" members) = some d) :
    fieldOr 10 uint64? (Place.lookup? ⟨"http", "connect_timeout_secs", 0⟩ members) =
      some d.connectTimeoutSecs ∧
    fieldOr 30 uint64? (Place.lookup? ⟨"http", "timeout_secs", 1⟩ members) = some d.timeoutSecs ∧
    fieldOr "sessionlist/0.1.0" text? (Place.lookup? ⟨"http", "user_agent", 2⟩ members) =
      some d.userAgent := by
  cases found : find? "http" members with
  | none =>
    rw [found] at read
    cases read
    simp only [Place.lookup?, found]
    exact ⟨rfl, rfl, rfl⟩
  | some v =>
    rw [found] at read
    simp only [fieldOr, HttpConfig.ofToml?, Option.bind_eq_bind, Option.bind_eq_some_iff] at read
    obtain ⟨get, fields, connect, readConnect, total, readTotal, agent, readAgent, made⟩ := read
    cases made
    rw [Place.lookup?_eq ⟨"http", "connect_timeout_secs", 0⟩ found fields (by decide),
      Place.lookup?_eq ⟨"http", "timeout_secs", 1⟩ found fields (by decide),
      Place.lookup?_eq ⟨"http", "user_agent", 2⟩ found fields (by decide)]
    exact ⟨readConnect, readTotal, readAgent⟩

/-- **The settings of a document** are those of its entries, and the built-in ones. -/
theorem configured_of_ofMembers? (read : Config.ofMembers? members = some c) (s : Setting) :
    s.configured c = (s.fromMembers? members).getD s.builtIn := by
  simp only [Config.ofMembers?, Option.bind_eq_bind, Option.bind_eq_some_iff] at read
  obtain ⟨announce, readAnnounce, lifecycle, readLifecycle, http, readHttp, made⟩ := read
  cases made
  obtain ⟨readHost, readPort, readProtocol, readOwner, readTitle⟩ :=
    announce_of_fieldOr readAnnounce
  obtain ⟨readLease, readMargin, readLeast, readCleanup⟩ := lifecycle_of_fieldOr readLifecycle
  obtain ⟨readConnect, readTotal, readAgent⟩ := http_of_fieldOr readHttp
  cases s with
  | host => exact form_eq_of_fieldOr readsForm_text? readHost
  | port => exact form_eq_of_fieldOr readsForm_uint16? readPort
  | protocol => exact form_eq_of_fieldOr readsForm_text? readProtocol
  | owner => exact form_eq_of_fieldOr readsForm_text? readOwner
  | title => exact form_eq_of_fieldOr readsForm_text? readTitle
  | nsfm => rfl
  | isPrivate => rfl
  | defaultLease => exact form_eq_of_fieldOr readsForm_int64? readLease
  | refreshMargin => exact form_eq_of_fieldOr readsForm_uint64? readMargin
  | minRefresh => exact form_eq_of_fieldOr readsForm_uint64? readLeast
  | unlistOnRefreshFailure => exact form_eq_of_fieldOr readsForm_flag? readCleanup
  | connectTimeout => exact form_eq_of_fieldOr readsForm_uint64? readConnect
  | timeout => exact form_eq_of_fieldOr readsForm_uint64? readTotal
  | userAgent => exact form_eq_of_fieldOr readsForm_text? readAgent

end Document

end Setting

end SessionDirectory
