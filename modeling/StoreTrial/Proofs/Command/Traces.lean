import StoreTrial.Proofs.Command.Completion

/-!
# What commands leave behind

Every command first puts its answer together and then writes it once, to the file that it is asked
to write to or to standard output. All faults come before that, or keep it from being written: a
command that ends with a fault leaves files and standard output as they were. `Answers` says which
text is the answer to a request, and `leaves_perform` that each command leaves exactly this text or
nothing. `run_leaves_no_trace` is the statement for exit codes, on every lawful system.
-/

namespace StoreTrial.Command

open Workload

/-! ## Answers -/

/-- The file that a request writes to, if it names one. -/
def Request.output? : Request → Option String
  | workload options => options.output
  | expected _ output => output
  | check _ _ _ => none

namespace View

variable {σ Place : Type} (view : View σ Place)

/-- The text is the whole answer to a request, and the request then ends in this way. -/
def Answers (before : σ) (request : Request) (text : String) (ending : Ending) : Prop :=
  match request with
  | .workload options => ending = .success ∧ ∃ config entropy workload,
      view.Resolves before options config ∧ (generate config entropy).run.value = .ok workload ∧
      workload.encode = .ok text
  | .expected input _ => ending = .success ∧ ∃ stream, view.Gives before input stream ∧
      (Trial.expectedText stream).run.value = .ok text
  | .check stream actual json => ∃ operations outcomes verdict,
      view.Holds before stream operations ∧ view.Holds before actual outcomes ∧
      (Trial.check operations outcomes).run.value = .ok verdict ∧
      ending = (if verdict.passed then .success else .failedCheck) ∧
      text = (if json then verdict.jsonReport else verdict.report) ++ "\n"

/-- A command leaves its answer where it is asked to, or nothing. -/
def Leaves (before : σ) (request : Request) (result : Except Fault Ending) (after : σ) : Prop :=
  match result with
  | .ok ending => ∃ text, view.Answers before request text ending ∧
      view.Received request.output? text before after
  | .error _ => view.Same before after

end View

section

variable {σ Place α : Type} {view : View σ Place} {before : σ}

/-- A command that answers does not end with the code of a fault, and with the code 1 only if it is
a check that did not pass. -/
theorem View.Answers.code {request : Request} {text : String} {ending : Ending}
    (h : view.Answers before request text ending) : ending.code ≠ 2 ∧
      (ending.code = 1 → ∃ stream actual json operations outcomes verdict,
        request = .check stream actual json ∧ view.Holds before stream operations ∧
        view.Holds before actual outcomes ∧
        (Trial.check operations outcomes).run.value = .ok verdict ∧ verdict.passed = false ∧
        text = (if json then verdict.jsonReport else verdict.report) ++ "\n") := by
  cases request with
  | workload options =>
    obtain ⟨rfl, -⟩ := h
    exact ⟨by decide, fun hcode => absurd hcode (by decide)⟩
  | expected input output =>
    obtain ⟨rfl, -⟩ := h
    exact ⟨by decide, fun hcode => absurd hcode (by decide)⟩
  | check stream actual json =>
    obtain ⟨operations, outcomes, verdict, hstream, hactual, hcheck, rfl, htext⟩ := h
    cases hpassed : verdict.passed with
    | true => exact ⟨by decide, fun hcode => absurd hcode (by decide)⟩
    | false =>
      exact ⟨by decide, fun _ => ⟨stream, actual, json, operations, outcomes, verdict, rfl, hstream,
        hactual, hcheck, hpassed, htext⟩⟩

/-- What is found before the answer is written may be used in it. -/
theorem View.Finds.leaves {base : σ} {action : Action (StateM σ) α}
    {next : α → Action (StateM σ) Ending} {good : Except Fault α → Prop} {request : Request}
    (h : view.Finds base action good) (hbase : view.Same before base)
    (hnext : ∀ a, good (.ok a) → ∀ between, view.Untouched base between →
      Satisfies (next a).run between (view.Leaves before request)) {state : σ}
    (hstate : view.Untouched base state) :
    Satisfies (action >>= next).run state (view.Leaves before request) :=
  h.satisfies_bind hnext (fun _ _ _ hbetween => hbase.trans hbetween.1) hstate

variable [Host (StateM σ)] (hview : view.Lawful)

include hview

/-- An answer that is written is left, and one that cannot be written is not. -/
theorem leaves_writeTo (request : Request) {text : String} {ending : Ending}
    (hanswer : view.Answers before request text ending) {state : σ}
    (hstate : view.Same before state) :
    Satisfies (do writeTo request.output? text; return ending : Action (StateM σ) Ending).run state
      (view.Leaves before request) := by
  refine satisfies_bind (satisfies_writeTo hview request.output? text hstate) ?_ ?_
  · rintro ⟨⟩ between hreceived
    exact satisfies_known.mpr ⟨text, hanswer, hreceived⟩
  · exact fun fault between hsame => hsame

/-! ## Commands -/

/-- A workload is left, or nothing. -/
theorem leaves_workload (options : WorkloadOptions) :
    Satisfies (perform (.workload options) : Action (StateM σ) Ending).run before
      (view.Leaves before (.workload options)) := by
  refine (finds_gather hview options).leaves ⟨rfl, rfl⟩ ?_ (.refl before)
  intro plan hplan between hbetween
  obtain ⟨file, hfile, hplan⟩ := hplan plan rfl
  refine satisfies_bind (satisfies_configure hview plan hbetween) ?_ fun _ _ hafter => hafter.1
  rintro config ready ⟨hready, hconfig⟩
  have hresolves : view.Resolves before options config :=
    ⟨file, plan, hfile, hplan, hconfig config rfl⟩
  have hseed : view.Finds ready (liftM (Host.freshSeed (m := StateM σ))) fun result =>
      ∃ a, result = .ok a := finds_lift_of_untouched hview.freshSeed
  -- The line for the answer may be gone from standard input, so the rest starts from here.
  refine hseed.leaves hready (fun entropy _ _ => ?_) (.refl ready)
  refine (finds_trial hview _).leaves hready fun workload hworkload _ => ?_
  refine (finds_keep hview _).leaves hready fun _ _ _ => ?_
  refine (finds_known _).leaves hready fun text htext _ hstate => ?_
  rw [output_of_ofOptions hplan]
  exact leaves_writeTo hview (.workload options)
    ⟨rfl, config, entropy, workload, hresolves, hworkload.symm, htext.symm⟩ (hready.trans hstate.1)

/-- Expected outcomes are left, or nothing. -/
theorem leaves_expected (input output : Option String) :
    Satisfies (perform (.expected input output) : Action (StateM σ) Ending).run before
      (view.Leaves before (.expected input output)) := by
  refine satisfies_bind (satisfies_readFrom hview input) ?_ fun _ _ hafter => hafter.1
  rintro stream read ⟨hread, hstream⟩
  refine (finds_trial hview _).leaves hread (fun text htext _ hstate => ?_) (.refl read)
  exact leaves_writeTo hview (.expected input output) ⟨rfl, stream, hstream stream rfl, htext.symm⟩
    (hread.trans hstate.1)

/-- A verdict is left, or nothing. -/
theorem leaves_check (stream actual : String) (json : Bool) :
    Satisfies (perform (.check stream actual json) : Action (StateM σ) Ending).run before
      (view.Leaves before (.check stream actual json)) := by
  have hbefore : view.Same before before := ⟨rfl, rfl⟩
  refine (finds_readFile hview stream).leaves hbefore (fun operations hoperations _ => ?_)
    (.refl before)
  refine (finds_trial hview _).leaves hbefore fun decoded hdecoded _ => ?_
  refine (finds_readFile hview actual).leaves hbefore fun outcomes houtcomes _ => ?_
  refine (finds_trial hview _).leaves hbefore fun decoded' hdecoded' _ => ?_
  refine (finds_trial hview _).leaves hbefore fun verdict hverdict _ hstate => ?_
  have hcheck : (Trial.check operations outcomes).run.value = .ok verdict :=
    Trial.value_bind_eq_ok_iff.mpr ⟨decoded, hdecoded.symm,
      Trial.value_bind_eq_ok_iff.mpr ⟨decoded', hdecoded'.symm, hverdict.symm⟩⟩
  exact leaves_writeTo hview (.check stream actual json)
    ⟨operations, outcomes, verdict, hoperations operations rfl, houtcomes outcomes rfl, hcheck, rfl,
      rfl⟩ hstate.1

/-- Each command leaves its answer, or nothing. -/
theorem leaves_perform (request : Request) (before : σ) :
    Satisfies (perform request : Action (StateM σ) Ending).run before
      (view.Leaves before request) := by
  cases request with
  | workload options => exact leaves_workload hview options
  | expected input output => exact leaves_expected hview input output
  | check stream actual json => exact leaves_check hview stream actual json

/-! ## The program -/

/-- The program leaves the answer to a request, or nothing that is seen and a fault. -/
theorem satisfies_run (request : Request) (before : σ) :
    Satisfies (run request) before fun ending after =>
      (ending = .fault ∧ view.Same before after) ∨
      ∃ text, view.Answers before request text ending ∧
        view.Received request.output? text before after := by
  have hperform := leaves_perform hview request before
  obtain ⟨result, between, hresult⟩ : ∃ result between, StateT.run (m := Id)
      (ExceptT.run (perform request : Action (StateM σ) Ending)) before = (result, between) :=
    ⟨_, _, rfl⟩
  unfold Satisfies at hperform ⊢
  unfold run
  rw [StateT.run_bind]
  rw [hresult] at hperform ⊢
  cases result with
  | ok ending => exact .inr hperform
  | error fault => exact .inl ⟨rfl, hperform.trans (hview.writeError _ between).1⟩

/-- Whatever the program is asked for, and whatever files and standard input hold, it leaves no
trace of a fault. If it ends with the exit code 2, then files and standard output are as they were.
Otherwise exactly the text of the answer is left, in the file that the request names for it or on
standard output, and nothing else changed; a check names no file for it. The exit code 1 means that
a check read both streams and did not pass, and that its report is on standard output. -/
theorem run_leaves_no_trace (request : Request) {before after : σ} {ending : Ending}
    (h : StateT.run (m := Id) (run request) before = (ending, after)) :
    (ending.code = 2 → view.Same before after) ∧
    (ending.code ≠ 2 → ∃ text, view.Answers before request text ending ∧
      view.Received request.output? text before after) ∧
    (ending.code = 1 → ∃ stream actual json streamText actualText operations outcomes,
      request = .check stream actual json ∧ view.Holds before stream streamText ∧
      view.Holds before actual actualText ∧ OperationStream.decode streamText = .ok operations ∧
      OutcomeStream.decode actualText = .ok outcomes ∧
      let verdict := Verdict.compare (replay operations.entries).value outcomes.entries
      verdict.passed = false ∧ view.files after = view.files before ∧
      view.output after = view.output before ++
        ((if json then verdict.jsonReport else verdict.report) ++ "\n")) := by
  have hrun := satisfies_run hview request before
  unfold Satisfies at hrun
  rw [h] at hrun
  rcases hrun with ⟨rfl, hsame⟩ | ⟨text, hanswer, hreceived⟩
  · exact ⟨fun _ => hsame, fun hcode => absurd rfl hcode, fun hcode => absurd hcode (by decide)⟩
  · obtain ⟨hfault, hfailed⟩ := hanswer.code
    refine ⟨fun hcode => absurd hcode hfault, fun _ => ⟨text, hanswer, hreceived⟩, fun hcode => ?_⟩
    obtain ⟨stream, actual, json, streamText, actualText, verdict, rfl, hstream, hactual, hcheck,
      hpassed, rfl⟩ := hfailed hcode
    obtain ⟨operations, outcomes, hoperations, houtcomes, rfl⟩ :=
      Trial.value_check_eq_ok_iff.mp hcheck
    exact ⟨stream, actual, json, streamText, actualText, operations, outcomes, rfl, hstream,
      hactual, hoperations, houtcomes, hpassed, hreceived.1, hreceived.2⟩

end

/-- The expected outcomes of a stream go to the file that the stream was read from; and where that
file holds no stream, nothing is written. -/
theorem no_trace_of_malformed_stream :
    let request := Request.expected (some "s.txt") (some "s.txt")
    let wellFormed := World.empty.put "s.txt" "1\n1 A\n"
    let malformed := World.empty.put "s.txt" "one line\n"
    World.view.Lawful ∧
    (∃ after, StateT.run (m := Id) (run request) wellFormed = (.success, after) ∧
      ∃ text, World.view.Answers wellFormed request text .success ∧
        World.view.Received (some "s.txt") text wellFormed after) ∧
    ∃ after, StateT.run (m := Id) (run request) malformed = (.fault, after) ∧
      World.view.Same malformed after := by
  intro request wellFormed malformed
  have hleads : Path.Leads "s.txt" "s.txt" := Path.leads_name (by constructor <;> decide)
  have hserves := World.serves_of_leads hleads
  refine ⟨World.lawful_view, ?_, ?_⟩
  · have hread := hserves.readAs (World.holds_put hleads "1\n1 A\n" .empty)
    have hdecode : OperationStream.decode "1\n1 A\n" = .ok ⟨[.read "A"], 0⟩ := rfl
    have hexpected := Trial.value_expectedText_of_decode hdecode
    have hending := (satisfies_run_of_ok (satisfies_expected World.lawful_view hread hexpected
      hserves)).1
    have hrun := Prod.ext_iff.mpr ⟨hending, rfl⟩
    exact ⟨_, hrun, (run_leaves_no_trace World.lawful_view request hrun).2.1 (by decide)⟩
  · obtain ⟨ending, after, hrun⟩ : ∃ ending after,
        StateT.run (m := Id) (run request) malformed = (ending, after) := ⟨_, _, rfl⟩
    have hleaves := satisfies_run World.lawful_view request malformed
    unfold Satisfies at hleaves
    rw [hrun] at hleaves
    rcases hleaves with ⟨rfl, -⟩ | ⟨text, ⟨-, stream, hstream, hexpected⟩, -⟩
    · exact ⟨after, hrun, (run_leaves_no_trace World.lawful_view request hrun).1 rfl⟩
    · -- There are no expected outcomes of this stream.
      obtain rfl : stream = "one line\n" :=
        View.Holds.unique hstream (World.holds_put hleads "one line\n" .empty)
      obtain ⟨fault, hdecode⟩ : ∃ fault, OperationStream.decode "one line\n" = .error fault :=
        ⟨_, rfl⟩
      rw [Trial.value_expectedText, hdecode] at hexpected
      contradiction

end StoreTrial.Command
