import Mathlib.Data.List.Forall2
import SessionDirectory.Program
import SessionDirectory.Proofs.SortedMap

/-!
# The course of an update

An update loads all of its response files, then opens a client, and only then talks to the list
server: with one call if listings are updated, and with one call for each listing if they are
removed. What it prints are the bodies that it receives, and it fails unless every call is answered
with 200 or 204.

## Main definitions

* `Command.run?`: a command carried out with a configuration
* `Overlaid`: stored updates with overrides on top
* `CallsOf`: the calls of an update or a removal
* `answersAfter`: the answers of a server to calls
* `Agrees`: what is printed and whether the command fails, by the answers
* `UpdateCourse`: the course of an update from its files to its end

## Main results

* `StoredListing.loadAll_eq_error`, `StoredListing.loadAll_cases`: all files are loaded, or there
  is a first bad one
* `Dialogue.run_askAll`: several calls are made in order, whatever becomes of them
* `complaints_ofResults_eq_empty_iff`: a report of failure comes with complaints, and only that one
* `agrees_ofResults`: a report agrees with the answers that it is about
* `Program.run?_eq`: the program carries out the command of its command line
* `updateCourse_of_args`: every update takes its course
-/

set_option autoImplicit false

namespace SessionDirectory

open CommandLine

/-! ## Loading -/

namespace StoredListing

variable {files : Files} {path : String} {paths : List String} {listing : StoredListing}
  {listings : List StoredListing} {e : StoredListingError}

/-- The files hold the listings, in order. -/
abbrev Loaded (files : Files) : List String → List StoredListing → Prop :=
  List.Forall₂ fun path listing => load files path = .ok listing

theorem loadAll_cons (files : Files) (path : String) (paths : List String) :
    loadAll files (path :: paths) = do
      return (← load files path) :: (← loadAll files paths) :=
  List.mapM_cons

theorem loadAll_eq_ok (loaded : Loaded files paths listings) :
    loadAll files paths = .ok listings := by
  induction loaded with
  | nil => rfl
  | cons first _ ih =>
    rw [loadAll_cons, first, ih]
    rfl

/-- The error of several files is that of the first bad one. -/
theorem loadAll_eq_error {before after : List String}
    (good : ∀ p ∈ before, ∃ listing, load files p = .ok listing)
    (bad : load files path = .error e) :
    loadAll files (before ++ path :: after) = .error e := by
  induction before with
  | nil =>
    rw [List.nil_append, loadAll_cons, bad]
    rfl
  | cons first before ih =>
    obtain ⟨listing, loaded⟩ := good first List.mem_cons_self
    have rest := ih fun p mem => good p (List.mem_cons_of_mem _ mem)
    rw [List.cons_append, loadAll_cons, loaded, rest]
    rfl

/-- **All files are loaded, or there is a first bad one.** -/
theorem loadAll_cases (files : Files) (paths : List String) :
    (∃ listings, Loaded files paths listings) ∨
      ∃ before path after e, paths = before ++ path :: after ∧
        (∀ p ∈ before, ∃ listing, load files p = .ok listing) ∧ load files path = .error e := by
  induction paths with
  | nil => exact .inl ⟨[], .nil⟩
  | cons path paths ih =>
    -- The first file is the bad one, or it is loaded and the bad one is among the others.
    cases first : load files path with
    | error e => exact .inr ⟨[], path, paths, e, rfl, by simp, first⟩
    | ok listing =>
      rcases ih with ⟨listings, loaded⟩ | ⟨before, path', after, e, rfl, good, bad⟩
      · exact .inl ⟨listing :: listings, .cons first loaded⟩
      · refine .inr ⟨path :: before, path', after, e, rfl, ?_, bad⟩
        rintro p (_ | ⟨_, mem⟩)
        · exact ⟨listing, first⟩
        · exact good p mem

end StoredListing

open StoredListing (Loaded)

/-! ## The calls -/

section Calls

variable {listings : List StoredListing}

/-- The stored updates of a listing with overrides on top, under the credential of the listing. -/
structure Overlaid (overrides : UpdateFields) (listing : StoredListing) (p : PendingUpdate) :
    Prop where
  credential : p.credential = listing.credential
  fields : ∀ name, p.fields.get? name = (overrides.get? name).or (listing.updates.get? name)

theorem overlaid_merge (overrides : UpdateFields) (listing : StoredListing) :
    Overlaid overrides listing (listing.merge overrides) :=
  ⟨rfl, SortedMap.get?_merge listing.updates overrides⟩

theorem forall_overlaid_merge (overrides : UpdateFields) (listings : List StoredListing) :
    List.Forall₂ (Overlaid overrides) listings (listings.map (·.merge overrides)) := by
  induction listings with
  | nil => exact .nil
  | cons listing listings ih => exact .cons (overlaid_merge overrides listing) ih

/-- **The calls of an update or a removal of listings.** An update is one call however many
listings there are; a removal is one call for each of them, in order. -/
inductive CallsOf (overrides : UpdateFields) : Bool → List StoredListing → List Call → Prop
  | single {listing : StoredListing} {p : PendingUpdate}
      (overlaid : Overlaid overrides listing p) :
      CallsOf overrides false [listing]
        [.update listing.credential.id listing.credential.key p.fields]
  | batch {listings : List StoredListing} {ps : List PendingUpdate}
      (several : 2 ≤ listings.length) (overlaid : List.Forall₂ (Overlaid overrides) listings ps) :
      CallsOf overrides false listings [.batchUpdate (BatchUpdate.ofPending ps)]
  | unlist {listings : List StoredListing} :
      CallsOf overrides true listings
        (listings.map fun listing => .unlist listing.credential.id listing.credential.key)

theorem exists_updateCall (overrides : UpdateFields) (nonempty : listings ≠ []) :
    ∃ call, updateCall? (listings.map (·.merge overrides)) = some call ∧
      CallsOf overrides false listings [call] := by
  -- The branches of the call itself: one listing or at least two.
  match listings with
  | [listing] => exact ⟨_, rfl, .single (overlaid_merge overrides listing)⟩
  | first :: second :: rest =>
    exact ⟨_, rfl, .batch (by simp) (forall_overlaid_merge overrides (first :: second :: rest))⟩

end Calls

/-! ## The answers -/

/-- The answers of a server to calls, after some calls before. -/
def answersAfter (d : Directory) : List Call → List Call → List Answer
  | _, [] => []
  | past, call :: rest => d past call :: answersAfter d (past ++ [call]) rest

namespace Dialogue

variable {α β : Type} (d : Directory)

theorem runAfter_map (f : α → β) (dialogue : Dialogue α) (past : List Call) :
    (dialogue.map f).runAfter d past =
      ((dialogue.runAfter d past).1, f (dialogue.runAfter d past).2) := by
  induction dialogue generalizing past with
  | done result => rfl
  | ask call next ih => exact ih (d past call) (past ++ [call])

theorem run_map (f : α → β) (dialogue : Dialogue α) :
    (dialogue.map f).run d = ((dialogue.run d).1, f (dialogue.run d).2) :=
  runAfter_map d f dialogue []

theorem runAfter_askAll (calls past : List Call) :
    (askAll calls).runAfter d past = (past ++ calls, answersAfter d past calls) := by
  -- The past grows with every call, so the induction is for any past.
  induction calls generalizing past with
  | nil => exact Prod.ext (List.append_nil past).symm rfl
  | cons call rest ih =>
    show ((askAll rest).map _).runAfter d (past ++ [call]) = _
    rw [runAfter_map, ih, List.append_assoc]
    rfl

/-- **Several calls are made in order, whatever becomes of them.** -/
theorem run_askAll (calls : List Call) : (askAll calls).run d = (calls, answersAfter d [] calls) :=
  runAfter_askAll d calls []

end Dialogue

theorem length_answersAfter (d : Directory) (past calls : List Call) :
    (answersAfter d past calls).length = calls.length := by
  induction calls generalizing past with
  | nil => rfl
  | cons call rest ih => rw [answersAfter, List.length_cons, List.length_cons, ih]

/-! ## Reports -/

/-- A report with the requests that led to it. -/
def Report.transcript (report : Report) (requests : List Request) : Transcript :=
  ⟨report.printed, requests, report.failure⟩

/-- Whether a call is answered as an update or a removal has to be. -/
def Answered (answer : Answer) : Prop :=
  ∃ response, answer = .ok response ∧ (response.status = 200 ∨ response.status = 204)

/-- **What is printed and whether the command fails agree with the answers** to the calls of an
update or of a removal. -/
structure Agrees (unlist : Bool) (answers : List Answer) (t : Transcript) : Prop where
  /-- The output is the bodies received, in order, each on a line of its own. -/
  output : t.output =
    String.join ((answers.filterMap Except.toOption).map fun response => response.body ++ "\n")
  success : t.failure = none ↔ ∀ answer ∈ answers, Answered answer
  /-- An update that cannot be sent fails for that reason. -/
  unsent : unlist = false → ∀ e, answers = [.error e] → t.failure = some (.submit (.directory e))

section Reports

variable {results : List (Except UnlistError Response)} {answers : List Answer}
  {requests : List Request}

theorem output_printedOf (result : Except UnlistError Response) (rest : List Printed)
    (failure : Option Failure) :
    Transcript.output ⟨Report.printedOf result ++ rest, requests, failure⟩ =
      String.join ((result.toOption.map fun response => response.body ++ "\n").toList) ++
        Transcript.output ⟨rest, requests, failure⟩ := by
  cases result with
  | error e => simp [Report.printedOf, Transcript.output, Except.toOption]
  | ok response =>
    -- The two reports differ in a complaint, which is no output.
    rw [Report.printedOf]
    split <;> simp [Transcript.output, Except.toOption, Printed.line]

theorem output_ofResults (results : List (Except UnlistError Response))
    (failure : Option Failure) :
    Transcript.output ⟨results.flatMap Report.printedOf, requests, failure⟩ =
      String.join ((results.filterMap Except.toOption).map fun response =>
        response.body ++ "\n") := by
  induction results with
  | nil => rfl
  | cons result rest ih =>
    rw [List.flatMap_cons, output_printedOf, ih, List.filterMap_cons]
    cases result.toOption <;> simp

theorem isOkOrNoContent_iff {response : Response} :
    response.isOkOrNoContent = true ↔ response.status = 200 ∨ response.status = 204 := by
  simp [Response.isOkOrNoContent]

theorem not_isFailed_iff {result : Except UnlistError Response} {answer : Answer}
    (same : result.toOption = answer.toOption) :
    ¬ Report.isFailed result = true ↔ Answered answer := by
  cases result with
  | error e =>
    cases answer with
    | error e' => simp [Report.isFailed, Answered]
    | ok response => cases same
  | ok response =>
    cases answer with
    | error e' => cases same
    | ok response' =>
      obtain rfl : response = response' := Option.some.inj same
      simp [Report.isFailed, Answered, isOkOrNoContent_iff]

theorem failure_ofResults_eq_none_iff :
    (Report.ofResults results).failure = none ↔ ∀ result ∈ results, ¬ Report.isFailed result := by
  rw [← List.countP_eq_zero]
  show (if _ then _ else _) = none ↔ _
  split
  next zero => exact iff_of_true rfl zero
  next nonzero => exact iff_of_false (by simp) nonzero

theorem complaints_printedOf_eq_empty_iff (result : Except UnlistError Response)
    (rest : List Printed) (failure : Option Failure) :
    Transcript.complaints ⟨Report.printedOf result ++ rest, requests, failure⟩ = "" ↔
      ¬ Report.isFailed result ∧ Transcript.complaints ⟨rest, requests, failure⟩ = "" := by
  cases result with
  | error e => simp [Report.printedOf, Report.isFailed, Transcript.complaints]
  | ok response =>
    rw [Report.printedOf]
    split <;> simp [*, Report.isFailed, Transcript.complaints, Printed.line]

/-- Nothing is complained of exactly if the report is one of success. -/
theorem complaints_ofResults_eq_empty_iff (results : List (Except UnlistError Response)) :
    ((Report.ofResults results).transcript requests).complaints = "" ↔
      (Report.ofResults results).failure = none := by
  rw [failure_ofResults_eq_none_iff]
  have each (failure : Option Failure) :
      Transcript.complaints ⟨results.flatMap Report.printedOf, requests, failure⟩ = "" ↔
        ∀ result ∈ results, ¬ Report.isFailed result := by
    induction results with
    | nil => simp [Transcript.complaints]
    | cons result rest ih =>
      rw [List.flatMap_cons, complaints_printedOf_eq_empty_iff, ih, List.forall_mem_cons]
  exact each _

/-- The results are the answers, whatever the errors are called in them. -/
abbrev ResultsOf : List (Except UnlistError Response) → List Answer → Prop :=
  List.Forall₂ fun result answer => result.toOption = answer.toOption

theorem filterMap_toOption_eq (same : ResultsOf results answers) :
    results.filterMap Except.toOption = answers.filterMap Except.toOption := by
  induction same with
  | nil => rfl
  | cons first _ ih => rw [List.filterMap_cons, List.filterMap_cons, first, ih]

theorem forall_not_isFailed_iff (same : ResultsOf results answers) :
    (∀ result ∈ results, ¬ Report.isFailed result) ↔ ∀ answer ∈ answers, Answered answer := by
  induction same with
  | nil => simp
  | cons first _ ih =>
    rw [List.forall_mem_cons, List.forall_mem_cons, ih, not_isFailed_iff first]

/-- **A report agrees with the answers that it is about.** -/
theorem agrees_ofResults (same : ResultsOf results answers) :
    Agrees true answers ((Report.ofResults results).transcript requests) := by
  refine ⟨?_, ?_, by simp⟩
  · rw [← filterMap_toOption_eq same]
    exact output_ofResults results _
  · exact failure_ofResults_eq_none_iff.trans (forall_not_isFailed_iff same)

end Reports

/-! ## The dialogue of an update -/

section Course

variable {listings : List StoredListing}

theorem resultsOf_zipWith {ps : List PendingUpdate} {answers : List Answer}
    (length : answers.length = ps.length) :
    ResultsOf
      (List.zipWith (fun p answer => answer.mapError (UnlistError.mk p.credential.id)) ps answers)
      answers := by
  induction ps generalizing answers with
  | nil =>
    obtain rfl := List.length_eq_zero_iff.mp length
    exact .nil
  | cons p ps ih =>
    cases answers with
    | nil => simp at length
    | cons answer answers =>
      refine .cons ?_ (ih (Nat.succ.inj length))
      cases answer <;> rfl

/-- An update of one or several listings makes one call, and its report agrees with the answer. -/
theorem run_submitUpdates {ps : List PendingUpdate} {call : Call} (d : Directory)
    (requests : List Request) (asked : updateCall? ps = some call) :
    ((updateDialogue ps false).run d).1 = [call] ∧
      Agrees false (answersAfter d [] [call])
        (((updateDialogue ps false).run d).2.transcript requests) := by
  have run : (updateDialogue ps false).run d =
      ([call], Report.ofUpdate ((d [] call).mapError SubmitError.directory)) := by
    rw [updateDialogue, if_neg Bool.false_ne_true, Dialogue.run_map, submitUpdates, asked]
    rfl
  rw [run]
  refine ⟨rfl, ?_⟩
  show Agrees false [d [] call] _
  cases d [] call with
  | error e =>
    refine ⟨rfl, ?_, ?_⟩
    · refine iff_of_false (fun none => by cases none) fun answered => ?_
      obtain ⟨response, ok, -⟩ := answered _ List.mem_cons_self
      cases ok
    · rintro - e' same
      obtain rfl : e = e' := by simpa using same
      rfl
  | ok response =>
    -- The report is that on a list of one answer.
    have agrees : Agrees true [.ok response]
        ((Report.ofResults [.ok response]).transcript requests) :=
      agrees_ofResults (.cons rfl .nil)
    exact ⟨agrees.output, agrees.success, by simp⟩

theorem run_submitUnlists (ps : List PendingUpdate) (d : Directory) (requests : List Request) :
    ((updateDialogue ps true).run d).1 = ps.map unlistCall ∧
      Agrees true (answersAfter d [] (ps.map unlistCall))
        (((updateDialogue ps true).run d).2.transcript requests) := by
  rw [updateDialogue, if_pos rfl, submitUnlists, Dialogue.run_map, Dialogue.run_map,
    Dialogue.run_askAll]
  refine ⟨rfl, agrees_ofResults (resultsOf_zipWith ?_)⟩
  rw [length_answersAfter, List.length_map]

/-- **The dialogue of an update or a removal** of at least one listing makes its calls with every
server, and its report agrees with the answers. -/
theorem exists_callsOf_updateDialogue (overrides : UpdateFields) (unlist : Bool)
    (nonempty : listings ≠ []) :
    ∃ calls, CallsOf overrides unlist listings calls ∧
      ∀ (d : Directory) (requests : List Request),
        ((updateDialogue (listings.map (·.merge overrides)) unlist).run d).1 = calls ∧
          Agrees unlist (answersAfter d [] calls)
            (((updateDialogue (listings.map (·.merge overrides)) unlist).run d).2.transcript
              requests) := by
  cases unlist with
  | false =>
    obtain ⟨call, asked, calls⟩ := exists_updateCall overrides nonempty
    exact ⟨[call], calls, fun d requests => run_submitUpdates d requests asked⟩
  | true =>
    refine ⟨_, .unlist, fun d requests => ?_⟩
    have run := run_submitUnlists (listings.map (·.merge overrides)) d requests
    rw [List.map_map] at run
    exact run

/-! ## The course of an update -/

/-- A command carried out with a configuration, as long as a keeper returns within a number of
steps. -/
def Command.run? (config : Config) (s : Surroundings) (exchange : Exchange) (p : Pacer)
    (steps : Nat) (command : Command) : Option Transcript :=
  match command.job config s with
  | .error f => some (.ofFailure f)
  | .ok job => job.run? exchange p steps

theorem Program.run?_eq {env : Environment} {accountHome : Option String} {s : Surroundings}
    {arguments : List String} {invocation : Invocation} {config : Config}
    (exchange : Exchange) (p : Pacer) (steps : Nat)
    (read : Invocation.read arguments = .ok invocation)
    (loaded : Config.load s.files env accountHome invocation.config = .ok config) :
    Program.run? env accountHome s exchange p steps arguments =
      (invocation.command.run? config s exchange p steps).map Program.ofTranscript := by
  have job : invocation.job env accountHome s = invocation.command.job config s := by
    rw [Invocation.job, loaded]
    rfl
  rw [Program.run?, read, Command.run?]
  simp only [job]
  cases invocation.command.job config s <;> rfl

/-- **The course of an update**: what comes of response files, a URL and overrides with a network
that answers as it likes. -/
inductive UpdateCourse (config : Config) (s : Surroundings) (exchange : Exchange)
    (files : List String) (url : String) (overrides : UpdateOverrides) (unlist : Bool) :
    Transcript → Prop
  /-- A file is bad: nothing is sent or printed, and the error is that of the first bad one. -/
  | badFile {before after : List String} {path : String} {e : StoredListingError}
      (split : files = before ++ path :: after)
      (good : ∀ p ∈ before, ∃ listing, StoredListing.load s.files p = .ok listing)
      (bad : StoredListing.load s.files path = .error e) :
      UpdateCourse config s exchange files url overrides unlist (.ofFailure (.storedListing e))
  /-- There is no client: nothing is sent or printed either. -/
  | noClient {listings : List StoredListing} {e : DirectoryError}
      (loaded : Loaded s.files files listings)
      (refused : Client.new url config.http = .error e) :
      UpdateCourse config s exchange files url overrides unlist (.ofFailure (.directory e))
  /-- The calls are made, whatever server answers them. -/
  | made {listings : List StoredListing} {client : Client} {dialogue : Dialogue Report}
      {calls : List Call} {t : Transcript}
      (loaded : Loaded s.files files listings)
      (opened : Client.new url config.http = .ok client)
      (job : (Command.update files url overrides unlist).job config s =
        .ok (.talk client dialogue))
      (asked : CallsOf overrides.toFields unlist listings calls)
      (made : ∀ d : Directory, (dialogue.run d).1 = calls)
      (sent : t.requests = client.requests calls)
      (agrees : Agrees unlist (answersAfter (client.directory exchange) [] calls) t) :
      UpdateCourse config s exchange files url overrides unlist t

variable {s : Surroundings} {files : List String} {url : String}

theorem job_update_of_loaded (config : Config) (url : String) (overrides : UpdateOverrides)
    (unlist : Bool) (loaded : Loaded s.files files listings) :
    (Command.update files url overrides unlist).job config s =
      (Client.forCommand url config).map fun client =>
        .talk client (updateDialogue (listings.map (·.merge overrides.toFields)) unlist) := by
  rw [Command.job, StoredListing.loadAll_eq_ok loaded]
  rfl

theorem exists_updateCourse (config : Config) (s : Surroundings) (exchange : Exchange) (p : Pacer)
    (steps : Nat) (overrides : UpdateOverrides) (unlist : Bool) (nonempty : files ≠ []) :
    ∃ t, (Command.update files url overrides unlist).run? config s exchange p steps = some t ∧
      UpdateCourse config s exchange files url overrides unlist t := by
  -- The three stages in order: the files, the client, the dialogue.
  rcases StoredListing.loadAll_cases s.files files with
    ⟨listings, loaded⟩ | ⟨before, path, after, e, split, good, bad⟩
  · have job := job_update_of_loaded config url overrides unlist loaded
    cases opened : Client.new url config.http with
    | error e =>
      rw [Client.forCommand, opened] at job
      refine ⟨_, ?_, .noClient loaded opened⟩
      rw [Command.run?, job]
      rfl
    | ok client =>
      rw [Client.forCommand, opened] at job
      have listed : listings ≠ [] := by
        rintro rfl
        cases loaded
        exact nonempty rfl
      -- What is asked does not depend on the server, so the calls are the same with this network.
      obtain ⟨calls, asked, run⟩ :=
        exists_callsOf_updateDialogue overrides.toFields unlist listed
      obtain ⟨made, agrees⟩ := run (client.directory exchange) (client.requests calls)
      refine ⟨_, ?_, .made loaded opened job asked (fun d => (run d []).1) rfl agrees⟩
      rw [Command.run?, job, ← made]
      rfl
  · refine ⟨_, ?_, .badFile split good bad⟩
    have job : (Command.update files url overrides unlist).job config s =
        .error (.storedListing e) := by
      rw [Command.job, split, StoredListing.loadAll_eq_error good bad]
      rfl
    rw [Command.run?, job]

end Course

/-- The overrides that are given on a command line. -/
def CommandLine.Scan.overrides (scan : Scan) : UpdateOverrides where
  title := scan.value? "title"
  users := (scan.number? "users" maxUsers).map UInt32.ofNat
  usernames := scan.value? "usernames"
  nsfm := scan.value? "nsfm"
  password := scan.value? "password"

/-- **Every update takes its course.** Of the operands of an update the last one is the URL and
those before it are the files, and whatever the configuration, the overrides and the answers are,
the update ends in the way its files, its client and the answers tell. -/
theorem updateCourse_of_args {scan : Scan} {files : List String} {url : String}
    (args : scan.values "args" = files ++ [url]) (nonempty : files ≠ []) :
    readCommand "update" scan = .ok (.update files url scan.overrides (scan.has "unlist")) ∧
      ∀ (config : Config) (s : Surroundings) (exchange : Exchange) (p : Pacer) (steps : Nat)
        (overrides : UpdateOverrides) (unlist : Bool),
        ∃ t, (Command.update files url overrides unlist).run? config s exchange p steps = some t ∧
          UpdateCourse config s exchange files url overrides unlist t := by
  constructor
  · have last : scan.operand "args" = .ok url := by
      rw [Scan.operand, Scan.value?, args, List.getLast?_concat]
    show (scan.operand "args" >>= _) = _
    rw [last, args]
    show Except.ok _ = _
    rw [List.dropLast_concat]
    rfl
  · intro config s exchange p steps overrides unlist
    exact exists_updateCourse config s exchange p steps overrides unlist nonempty

/-- A command line with two files. -/
theorem updateCourse_two_files :
    ∃ scan, scanCommand "update" ["--unlist", "a.json", "b.json", "http://host/"] = .ok scan ∧
      scan.values "args" = ["a.json", "b.json"] ++ ["http://host/"] ∧
      readCommand "update" scan =
        .ok (.update ["a.json", "b.json"] "http://host/" scan.overrides (scan.has "unlist")) ∧
      ∀ (config : Config) (s : Surroundings) (exchange : Exchange) (p : Pacer) (steps : Nat)
        (overrides : UpdateOverrides) (unlist : Bool),
        ∃ t, (Command.update ["a.json", "b.json"] "http://host/" overrides unlist).run?
            config s exchange p steps = some t ∧
          UpdateCourse config s exchange ["a.json", "b.json"] "http://host/" overrides unlist t := by
  refine ⟨_, rfl, ?_, ?_⟩
  · decide
  · exact updateCourse_of_args (by decide) (by decide)

end SessionDirectory
