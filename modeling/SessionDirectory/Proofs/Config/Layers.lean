import SessionDirectory.Proofs.Config.Setting
import SessionDirectory.Proofs.Except

/-!
# The layers of the settings

A setting comes from the command line, from an environment variable, from an entry of the document,
or it is built in; the first of these that has a value for it decides.

Each step of the resolution overrides some settings from their variables and leaves the others as
they are. Steps compose, and after the last one all settings that have a variable are overridden. A
bad number in a variable ends the resolution, and the port is looked at before the timeout.

## Main definitions

* `Setting.Overridden`: some settings are overridden from their variables, and no others
* `Sources`, `Sources.resolve`: where settings come from, and the configuration they resolve to
* `Sources.layered`: the value of a setting by its layers
* `Sources.Changes`: one source of one setting has changed
* `Sources.Layering`: when the resolution fails, and what it yields

## Main results

* `Config.exists_withEnvironment_eq_ok`: good variables override the settings they belong to
* `Sources.resolve_eq_error_iff`, `Sources.configured_of_resolve`: the two outcomes
* `Sources.layering_of_accepted`: the layers of every document that is accepted
-/

set_option autoImplicit false

namespace SessionDirectory

open Toml (Value)

/-! ## The environment -/

namespace Setting

variable {s : Setting} {c : Config} {env : Environment}

theorem numeral?_eq_some {limit n : Nat} {text : String} (denotes : Decimal.unsigned? text = some n)
    (within : n ≤ limit) : ofText?.numeral? limit text = some (.integer n) := by
  rw [ofText?.numeral?, denotes, Option.filter_some, if_pos (decide_eq_true within),
    Option.map_some]

theorem fromVariable?_eq {name : String} (named : s.envName? = some name) :
    s.fromVariable? env = (env name).bind s.ofText? := by
  rw [fromVariable?, named]
  rfl

/-- A text is overridden by the text of its variable. -/
theorem string_getD_eq {name : String} (named : s.envName? = some name)
    (asIs : ∀ text, s.ofText? text = some (.string text)) (old : String) :
    Value.string ((env name).getD old) = (s.fromVariable? env).getD (.string old) := by
  rw [fromVariable?_eq named]
  cases env name with
  | none => rfl
  | some text => rw [Option.bind_some, asIs, Option.getD_some, Option.getD_some]

/-- Some settings are overridden from their variables, and the others are as they were. -/
def Overridden (env : Environment) (settings : List Setting) (c c' : Config) : Prop :=
  ∀ s : Setting, s.configured c' =
    if s ∈ settings then (s.fromVariable? env).getD (s.configured c) else s.configured c

theorem Overridden.of_unset (unset : s.fromVariable? env = none) : Overridden env [s] c c := by
  intro t
  split
  next mem => rw [List.mem_singleton.mp mem, unset, Option.getD_none]
  next => rfl

theorem Overridden.of_set {c' : Config} (set : s.fromVariable? env = some (s.configured c'))
    (others : ∀ t ≠ s, t.configured c' = t.configured c) : Overridden env [s] c c' := by
  intro t
  split
  next mem => rw [List.mem_singleton.mp mem, set, Option.getD_some]
  next other => exact others t fun same => other (List.mem_singleton.mpr same)

theorem Overridden.trans {settings settings' : List Setting} {c' c'' : Config}
    (first : Overridden env settings c c') (second : Overridden env settings' c' c'') :
    Overridden env (settings ++ settings') c c'' := by
  intro s
  rw [second s, first s]
  -- A setting that is overridden twice has the value of its variable both times.
  cases s.fromVariable? env <;> by_cases s ∈ settings <;> by_cases s ∈ settings' <;> simp [*]

/-- A setting without a variable is not overridden by the environment. -/
theorem Overridden.of_all {settings : List Setting} {c' : Config}
    (all : ∀ s : Setting, s.envName? ≠ none → s ∈ settings)
    (overridden : Overridden env settings c c') (s : Setting) :
    s.configured c' = (s.fromVariable? env).getD (s.configured c) := by
  rw [overridden s]
  split
  next => rfl
  next other =>
    have unnamed : s.envName? = none := Classical.not_not.mp fun named => other (all s named)
    rw [fromVariable?, unnamed]
    rfl

end Setting

/-- A variable is set to a text that denotes no number within a limit. -/
def Environment.Misnumbers (env : Environment) (name : String) (limit : Nat) : Prop :=
  ∃ text, env name = some text ∧ ∀ n, Decimal.unsigned? text = some n → limit < n

/-- A variable that is not so is not set, or its number is read and is what the text says. -/
theorem Environment.number_cases {env : Environment} {name : String} {limit : Nat}
    (good : ¬ env.Misnumbers name limit) :
    env name = none ∨ ∃ text n, env name = some text ∧ Decimal.readUnsigned limit text = .ok n ∧
      Setting.ofText?.numeral? limit text = some (.integer n) ∧ n ≤ limit := by
  cases set : env name with
  | none => exact .inl rfl
  | some text =>
    cases read : Decimal.readUnsigned limit text with
    | error fault =>
      exact absurd ⟨text, set, Decimal.exists_readUnsigned_eq_error_iff.mp ⟨fault, read⟩⟩ good
    | ok n =>
      obtain ⟨denotes, within⟩ := Decimal.readUnsigned_eq_ok_iff.mp read
      exact .inr ⟨text, n, rfl, read, Setting.numeral?_eq_some denotes within, within⟩

namespace Config

open Setting

variable {env : Environment} {text : String} {fault : Decimal.Fault}

theorem ofToml_eq_ok_iff {c : Config} : ofToml text = .ok c ↔
    ∃ members, Toml.parse? text = some members ∧ ofMembers? members = some c := by
  rw [← Option.bind_eq_some_iff, ofToml]
  cases (Toml.parse? text).bind ofMembers? <;> simp

theorem overridden_withHostVariable (env : Environment) (c : Config) :
    Overridden env [.host] c (withHostVariable env c) := by
  intro s
  cases s <;> try rfl
  case host => exact string_getD_eq rfl (fun _ => rfl) c.announce.host

theorem overridden_withNameVariables (env : Environment) (c : Config) :
    Overridden env [.protocol, .owner] c (withNameVariables env c) := by
  intro s
  cases s <;> try rfl
  case protocol => exact string_getD_eq rfl (fun _ => rfl) c.announce.protocol
  case owner => exact string_getD_eq rfl (fun _ => rfl) c.announce.owner

theorem exists_withPortVariable_eq_ok (c : Config)
    (good : ¬ env.Misnumbers "SESSIONLIST_PORT" 65535) :
    ∃ c', withPortVariable env c = .ok c' ∧ Overridden env [.port] c c' := by
  unfold withPortVariable
  rcases Environment.number_cases good with unset | ⟨text, n, set, read, value, within⟩
  · rw [unset]
    refine ⟨c, rfl, .of_unset ?_⟩
    rw [fromVariable?_eq rfl, unset, Option.bind_none]
  · rw [set]
    simp only [read]
    have small : n < UInt16.size := show n < 65536 by omega
    refine ⟨_, rfl, .of_set ?_ fun t other => ?_⟩
    · rw [fromVariable?_eq rfl, set, Option.bind_some, ofText?, value]
      simp only [configured, UInt16.toNat_ofNat_of_lt' small]
    · cases t <;> first | rfl | exact absurd rfl other

theorem exists_withTimeoutVariable_eq_ok (c : Config)
    (good : ¬ env.Misnumbers "SESSIONLIST_TIMEOUT_SECS" 18446744073709551615) :
    ∃ c', withTimeoutVariable env c = .ok c' ∧ Overridden env [.timeout] c c' := by
  unfold withTimeoutVariable
  rcases Environment.number_cases good with unset | ⟨text, n, set, read, value, within⟩
  · rw [unset]
    refine ⟨c, rfl, .of_unset ?_⟩
    rw [fromVariable?_eq rfl, unset, Option.bind_none]
  · rw [set]
    simp only [read]
    have small : n < UInt64.size := show n < 18446744073709551616 by omega
    refine ⟨_, rfl, .of_set ?_ fun t other => ?_⟩
    · rw [fromVariable?_eq rfl, set, Option.bind_some, ofText?, value]
      simp only [configured, UInt64.toNat_ofNat_of_lt' small]
    · cases t <;> first | rfl | exact absurd rfl other

theorem withEnvironment_of_port (c : Config) (set : env "SESSIONLIST_PORT" = some text)
    (refused : Decimal.readUnsigned 65535 text = .error fault) :
    withEnvironment env c = .error (.invalidPort text fault) := by
  simp only [withEnvironment, withPortVariable, set, refused]
  rfl

theorem withEnvironment_of_timeout (c : Config)
    (good : ¬ env.Misnumbers "SESSIONLIST_PORT" 65535)
    (set : env "SESSIONLIST_TIMEOUT_SECS" = some text)
    (refused : Decimal.readUnsigned 18446744073709551615 text = .error fault) :
    withEnvironment env c = .error (.invalidTimeout text fault) := by
  obtain ⟨c', port, -⟩ := exists_withPortVariable_eq_ok (withHostVariable env c) good
  simp only [withEnvironment, port, withTimeoutVariable, set, refused]
  rfl

/-- **Good variables override the settings that they belong to**, and no other. -/
theorem exists_withEnvironment_eq_ok (c : Config)
    (goodPort : ¬ env.Misnumbers "SESSIONLIST_PORT" 65535)
    (goodTimeout : ¬ env.Misnumbers "SESSIONLIST_TIMEOUT_SECS" 18446744073709551615) :
    ∃ c', withEnvironment env c = .ok c' ∧
      ∀ s : Setting, s.configured c' = (s.fromVariable? env).getD (s.configured c) := by
  have host := overridden_withHostVariable env c
  obtain ⟨c₁, port, withPort⟩ := exists_withPortVariable_eq_ok (withHostVariable env c) goodPort
  have names := overridden_withNameVariables env c₁
  obtain ⟨c₂, timeout, withTimeout⟩ :=
    exists_withTimeoutVariable_eq_ok (withNameVariables env c₁) goodTimeout
  have overridden := ((host.trans withPort).trans names).trans withTimeout
  refine ⟨c₂, bind_eq_ok port timeout, overridden.of_all fun s named => ?_⟩
  cases s <;> first | exact absurd rfl named | decide

/-- The document that is read: that of a given file, or of the user's own file, or none where
nothing is at its path. -/
inductive ReadsDocument (files : Files) (env : Environment) (accountHome : Option String) :
    Option String → Option String → Prop where
  | given {path text : String} (read : files path = .ok text) :
      ReadsDocument files env accountHome (some path) (some text)
  | own {path text : String} (named : defaultPath? env accountHome = some path)
      (read : files path = .ok text) : ReadsDocument files env accountHome none (some text)
  | missing (absent : ∀ path, defaultPath? env accountHome = some path →
      files.isPresent path = false) : ReadsDocument files env accountHome none none

end Config

/-! ## Sources -/

/-- Where settings come from, besides what is built in: the document, if there is one, the
environment and the command line. -/
structure Sources where
  document : Option String
  env : Environment
  options : AnnounceOptions

/-- What a document says about a setting. -/
def Setting.fromDocument? (document : Option String) (s : Setting) : Option Value := do
  let p ← s.place?
  (document.bind Toml.parse?).bind p.lookup?

theorem Setting.fromDocument?_none (s : Setting) : s.fromDocument? none = none := by
  cases place : s.place? <;> simp [fromDocument?, place]

namespace Sources

variable {src src' : Sources} {file config config' : Config}

/-- The configuration of the document, or the built-in one without a document. -/
def fileConfig (src : Sources) : Except ConfigError Config :=
  match src.document with
  | none => .ok {}
  | some text => Config.ofToml text

/-- The configuration that the sources resolve to. -/
def resolve (src : Sources) : Except ConfigError Config := do
  Config.withEnvironment src.env (← src.fileConfig)

/-- The announcement that is built from the configuration and the command line. -/
def announcement (src : Sources) (config : Config) (draw : SessionDraw) : Announcement :=
  Announcement.ofOptions config.announce src.options draw

/-- The resolution fails on the text of a variable, and the error tells what is wrong with it. -/
def Blames (src : Sources) (name : String) (limit : Nat)
    (error : String → Decimal.Fault → ConfigError) : Prop :=
  ∃ text fault, src.env name = some text ∧ Decimal.readUnsigned limit text = .error fault ∧
    src.resolve = .error (error text fault)

/-- **The value of a setting by its layers**: the command line, then the environment, then the
document, then what is built in. -/
def layered (src : Sources) (s : Setting) : Value :=
  (s.option? src.options).getD <| (s.fromVariable? src.env).getD <|
    (s.fromDocument? src.document).getD s.builtIn

/-- One source of one setting has changed: its option, its variable or its entry in the document.
Another document may be laid out in another way, if it says the same everywhere else. -/
inductive Changes (src : Sources) (s : Setting) : Sources → Prop where
  | ofOption (options : AnnounceOptions)
      (others : ∀ t ≠ s, t.option? options = t.option? src.options) :
      Changes src s { src with options }
  | ofVariable (env : Environment) {name : String} (named : s.envName? = some name)
      (others : ∀ other ≠ name, env other = src.env other) : Changes src s { src with env }
  | ofEntry (document : Option String) {p : Toml.Place} (place : s.place? = some p)
      (others : ∀ q : Toml.Place, q.Apart p →
        (document.bind Toml.parse?).bind q.lookup? =
          (src.document.bind Toml.parse?).bind q.lookup?) :
      Changes src s { src with document }

/-- **The layers of the settings.** When the resolution fails, and what it yields otherwise. -/
structure Layering (src : Sources) : Prop where
  fails_iff : (∃ e, src.resolve = .error e) ↔
    src.env.Misnumbers "SESSIONLIST_PORT" 65535 ∨
      src.env.Misnumbers "SESSIONLIST_TIMEOUT_SECS" 18446744073709551615
  /-- A bad port is reported, whatever the timeout is. -/
  port : src.env.Misnumbers "SESSIONLIST_PORT" 65535 →
    src.Blames "SESSIONLIST_PORT" 65535 .invalidPort
  /-- A bad timeout is reported where the port is good. -/
  timeout : ¬ src.env.Misnumbers "SESSIONLIST_PORT" 65535 →
    src.env.Misnumbers "SESSIONLIST_TIMEOUT_SECS" 18446744073709551615 →
      src.Blames "SESSIONLIST_TIMEOUT_SECS" 18446744073709551615 .invalidTimeout
  configured : ∀ config, src.resolve = .ok config → ∀ s : Setting,
    s.configured config =
      (s.fromVariable? src.env).getD ((s.fromDocument? src.document).getD s.builtIn)
  announced : ∀ config, src.resolve = .ok config → ∀ (draw : SessionDraw) (s : Setting),
    s.value config (src.announcement config draw) = src.layered s
  /-- What else is announced does not come from the sources. -/
  drawn : ∀ config (draw : SessionDraw), (src.announcement config draw).id = draw.id ∧
    (src.announcement config draw).users = draw.users ∧
    (src.announcement config draw).password = draw.password ∧
    (src.announcement config draw).usernames = []
  /-- A change to one source of one setting leaves all other settings as they are. -/
  unaffected : ∀ (src' : Sources) (s t : Setting) (config config' : Config),
    src.Changes s src' → t ≠ s → src.resolve = .ok config → src'.resolve = .ok config' →
      t.configured config' = t.configured config ∧ ∀ draw : SessionDraw,
        t.value config' (src'.announcement config' draw) =
          t.value config (src.announcement config draw)
  /-- The program resolves the sources whose document is the one that it reads. -/
  load : ∀ (files : Files) (accountHome path : Option String),
    Config.ReadsDocument files src.env accountHome path src.document →
      Config.load files src.env accountHome path = src.resolve

/-- The settings of an accepted document, or of none. -/
theorem configured_of_fileConfig (accepted : src.fileConfig = .ok file) (s : Setting) :
    s.configured file = (s.fromDocument? src.document).getD s.builtIn := by
  unfold fileConfig at accepted
  cases given : src.document with
  | none =>
    rw [given] at accepted
    cases accepted
    rw [s.configured_builtIn, s.fromDocument?_none, Option.getD_none]
  | some text =>
    rw [given] at accepted
    obtain ⟨members, parsed, read⟩ := Config.ofToml_eq_ok_iff.mp accepted
    have document : s.fromDocument? (some text) = s.fromMembers? members := by
      simp only [Setting.fromDocument?, Setting.fromMembers?, Option.bind_some, parsed]
    rw [document]
    exact Setting.configured_of_ofMembers? read s

theorem resolve_eq (accepted : src.fileConfig = .ok file) :
    src.resolve = Config.withEnvironment src.env file := by
  rw [resolve, accepted]
  rfl

theorem blames_port (accepted : src.fileConfig = .ok file)
    (bad : src.env.Misnumbers "SESSIONLIST_PORT" 65535) :
    src.Blames "SESSIONLIST_PORT" 65535 .invalidPort := by
  obtain ⟨text, set, beyond⟩ := bad
  obtain ⟨fault, refused⟩ := Decimal.exists_readUnsigned_eq_error_iff.mpr beyond
  refine ⟨text, fault, set, refused, ?_⟩
  rw [resolve_eq accepted, Config.withEnvironment_of_port file set refused]

theorem blames_timeout (accepted : src.fileConfig = .ok file)
    (good : ¬ src.env.Misnumbers "SESSIONLIST_PORT" 65535)
    (bad : src.env.Misnumbers "SESSIONLIST_TIMEOUT_SECS" 18446744073709551615) :
    src.Blames "SESSIONLIST_TIMEOUT_SECS" 18446744073709551615 .invalidTimeout := by
  obtain ⟨text, set, beyond⟩ := bad
  obtain ⟨fault, refused⟩ := Decimal.exists_readUnsigned_eq_error_iff.mpr beyond
  refine ⟨text, fault, set, refused, ?_⟩
  rw [resolve_eq accepted, Config.withEnvironment_of_timeout file good set refused]

/-- **The resolution fails exactly on a bad port or a bad timeout.** -/
theorem resolve_eq_error_iff (accepted : src.fileConfig = .ok file) :
    (∃ e, src.resolve = .error e) ↔ src.env.Misnumbers "SESSIONLIST_PORT" 65535 ∨
      src.env.Misnumbers "SESSIONLIST_TIMEOUT_SECS" 18446744073709551615 := by
  by_cases port : src.env.Misnumbers "SESSIONLIST_PORT" 65535
  · obtain ⟨text, fault, -, -, failed⟩ := blames_port accepted port
    exact iff_of_true ⟨_, failed⟩ (.inl port)
  by_cases timeout : src.env.Misnumbers "SESSIONLIST_TIMEOUT_SECS" 18446744073709551615
  · obtain ⟨text, fault, -, -, failed⟩ := blames_timeout accepted port timeout
    exact iff_of_true ⟨_, failed⟩ (.inr timeout)
  · obtain ⟨config, resolved, -⟩ := Config.exists_withEnvironment_eq_ok file port timeout
    rw [resolve_eq accepted, resolved]
    exact iff_of_false nofun (not_or.mpr ⟨port, timeout⟩)

/-- **The settings of a configuration that the sources resolve to.** -/
theorem configured_of_resolve (resolved : src.resolve = .ok config) (s : Setting) :
    s.configured config =
      (s.fromVariable? src.env).getD ((s.fromDocument? src.document).getD s.builtIn) := by
  obtain ⟨file, accepted, -⟩ := exists_of_bind_eq_ok resolved
  have good := mt (resolve_eq_error_iff accepted).mpr (by rw [resolved]; exact nofun)
  obtain ⟨port, timeout⟩ := not_or.mp good
  -- With both variables good, the document's configuration is overridden, and that is the result.
  obtain ⟨config', made, overridden⟩ := Config.exists_withEnvironment_eq_ok file port timeout
  rw [resolve_eq accepted, made] at resolved
  cases resolved
  rw [overridden s, configured_of_fileConfig accepted]

/-- What the command line says comes on top of the configuration. -/
theorem value_announcement (src : Sources) (config : Config) (draw : SessionDraw) (s : Setting) :
    s.value config (src.announcement config draw) =
      (s.option? src.options).getD (s.configured config) := by
  cases s <;> try rfl
  case host => exact (Option.getD_map ..).symm
  case port => exact (Option.getD_map (fun n : UInt16 => Value.integer n.toNat) ..).symm
  case protocol => exact (Option.getD_map ..).symm

theorem value_of_resolve (resolved : src.resolve = .ok config) (draw : SessionDraw) (s : Setting) :
    s.value config (src.announcement config draw) = src.layered s := by
  rw [value_announcement, configured_of_resolve resolved, layered]

/-- The sources of the other settings are as they were. -/
theorem Changes.layers_eq {s t : Setting} (changed : src.Changes s src') (other : t ≠ s) :
    t.option? src'.options = t.option? src.options ∧
    t.fromVariable? src'.env = t.fromVariable? src.env ∧
    t.fromDocument? src'.document = t.fromDocument? src.document := by
  cases changed with
  | ofOption options others => exact ⟨others t other, rfl, rfl⟩
  | @ofVariable env name named others =>
    refine ⟨rfl, ?_, rfl⟩
    cases ofT : t.envName? with
    | none => rw [Setting.fromVariable?, Setting.fromVariable?, ofT]; rfl
    | some name' =>
      -- No other setting reads the variable that has changed.
      have apart : name' ≠ name := fun same =>
        other (Setting.eq_of_envName?_eq (same ▸ ofT) named)
      rw [Setting.fromVariable?_eq ofT, Setting.fromVariable?_eq ofT]
      exact congrArg (·.bind t.ofText?) (others name' apart)
  | ofEntry document place others =>
    refine ⟨rfl, rfl, ?_⟩
    cases ofT : t.place? with
    | none => rw [Setting.fromDocument?, Setting.fromDocument?, ofT]; rfl
    | some q =>
      rw [Setting.fromDocument?, Setting.fromDocument?, ofT]
      exact others q (Setting.place?_apart ofT place other)

/-- What a program reads as its document is what the sources have as theirs. -/
theorem load_eq_resolve {files : Files} {accountHome path : Option String}
    (reads : Config.ReadsDocument files src.env accountHome path src.document)
    (accepted : src.fileConfig = .ok file) :
    Config.load files src.env accountHome path = src.resolve := by
  obtain ⟨document, env, options⟩ := src
  rw [resolve_eq accepted]
  simp only [fileConfig] at accepted reads ⊢
  cases reads with
  | given read =>
    simp only [Config.load, Config.ofFile, read, accepted]
    rfl
  | @own path text default read =>
    have present : files.isPresent path = true := by rw [Files.isPresent, read]
    simp only [Config.load, default, Option.filter_some, present, if_true, Config.ofFile, read,
      accepted]
    rfl
  | missing absent =>
    have none : (Config.defaultPath? env accountHome).filter files.isPresent = none := by
      simpa [Option.filter_eq_none_iff] using absent
    cases accepted
    simp only [Config.load, none]
    rfl

/-- A host in the document, a port there and in the environment, and a protocol on the command
line. -/
def fourLayers : Sources where
  document := some "[announce]\nhost = \"file\"\nport = 28000\n"
  env := fun name => if name = "SESSIONLIST_PORT" then some "+30000" else none
  options := { protocol := some "dp:5" }

example : fourLayers.resolve.toOption = some { announce := { host := "file", port := 30000 } } := by
  decide +kernel

end Sources

end SessionDirectory
