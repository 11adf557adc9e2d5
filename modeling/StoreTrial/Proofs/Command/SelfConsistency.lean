import StoreTrial.Proofs.Command.Configuration
import StoreTrial.Proofs.Command.Traces

/-!
# The commands agree with each other

A workload that is generated into a file can always be read, so the command for expected outcomes
accepts it, and a check of any stream against the outcomes that this command gave for it passes
(`exits_check_of_expectedText`). Values that are spelled like markers are no exception: outcomes are
compared by their lines, and a line that was written is read as it was.
`generate_oracle_check_exit_zero` puts the three commands together, from their arguments to their
exit codes, on every lawful system on which the two files can be read and written.
-/

namespace StoreTrial.Command

open Text Workload

/-! ## From one command to the next -/

section

variable {σ Place : Type} [Host (StateM σ)] {view : View σ Place} (hview : view.Lawful)
  {before : σ} {stream actual text answers : String} {streamPlace actualPlace : Place}

include hview

/-- A check of a stream against the text of its expected outcomes passes, and prints so. -/
theorem exits_check_of_expectedText (h : (Trial.expectedText text).run.value = .ok answers)
    (hstream : view.ReadAs before stream text) (hactual : view.ReadAs before actual answers)
    {check : List String} {json : Bool} (hasks : Asks check (.check stream actual json)) :
    ∃ operations checked, OperationStream.decode text = .ok operations ∧
      Exits check before 0 checked ∧
      view.Received none ((if json then (Verdict.agreement operations.entries.length).jsonReport
        else (Verdict.agreement operations.entries.length).report) ++ "\n") before checked := by
  obtain ⟨operations, hdecode, hcheck⟩ := Trial.check_expectedText h
  have hsatisfies := satisfies_check hview hstream hactual hcheck json
  rw [Verdict.passed_agreement, if_pos rfl] at hsatisfies
  obtain ⟨⟨checked, hexits⟩, hall⟩ := hasks.exits hsatisfies
  exact ⟨operations, checked, hdecode, hexits, (hall _ _ hexits).2⟩

/-- Where the command for expected outcomes succeeds, it leaves the expected outcomes of what it was
given. -/
theorem expectedText_of_exits_oracle {input output : Option String} {oracle : List String}
    {answered : σ} (hasks : Asks oracle (.expected input output))
    (h : Exits oracle before 0 answered) :
    ∃ text answers, view.Gives before input text ∧
      (Trial.expectedText text).run.value = .ok answers ∧
      view.Received output answers before answered := by
  obtain ⟨hcode, rfl⟩ := hasks.exits_iff.mp h
  rcases satisfies_run hview (.expected input output) before with
    ⟨hfault, -⟩ | ⟨answers, hanswer, hreceived⟩
  · rw [hfault] at hcode
    contradiction
  · obtain ⟨-, text, hgives, hexpected⟩ := hanswer
    exact ⟨text, answers, hgives, hexpected, hreceived⟩

/-- The three command lines, one after the other, end with the exit code 0, and the third prints
that `count` results match and does nothing else. -/
def View.PassInTurn (view : View σ Place) (generate oracle check : List String) (before : σ)
    (count : Nat) : Prop :=
  ∃ generated answered checked, Exits generate before 0 generated ∧
    Exits oracle generated 0 answered ∧ Exits check answered 0 checked ∧
    view.Received none s!"PASS: {count} of {count} results match\n" answered checked

/-- A workload that is written to a file has expected outcomes, and a check against them passes for
as many operations as were asked for. -/
theorem passInTurn_of_configures (hstream : view.Serves stream streamPlace)
    (hactual : view.Serves actual actualPlace) (hne : streamPlace ≠ actualPlace)
    {options : WorkloadOptions} {config : Config} {ready : σ}
    (houtput : options.output = some stream)
    (hconfigures : Configures options before config ready)
    {generate oracle check : List String} (hgenerate : Asks generate (.workload options))
    (horacle : Asks oracle (.expected (some stream) (some actual)))
    (hcheck : Asks check (.check stream actual false)) :
    view.PassInTurn generate oracle check before config.requestCount.toNat := by
  obtain ⟨⟨generated, hgenerated⟩, hall⟩ :=
    hgenerate.exits (satisfies_workload hview hconfigures houtput hstream)
  obtain ⟨-, workload, text, hcount, hdecode, hreceived⟩ := hall _ _ hgenerated
  have hexpected := Trial.value_expectedText_of_decode hdecode
  have hholds := hreceived.holds
  obtain ⟨⟨answered, hanswered⟩, hall⟩ :=
    horacle.exits (satisfies_expected hview (hstream.readAs hholds) hexpected hactual)
  obtain ⟨-, hreceived'⟩ := hall _ _ hanswered
  -- The outcomes went to another place, so the stream is still what was generated.
  have hstill := hholds.of_received hstream.place_eq hreceived' hactual.place_eq hne
  obtain ⟨operations, checked, hagain, hchecked, hprinted⟩ := exits_check_of_expectedText hview
    hexpected (hstream.readAs hstill) (hactual.readAs hreceived'.holds) hcheck
  rw [hdecode] at hagain
  obtain rfl := Except.ok.inj hagain
  have hline :
      s!"PASS: {config.requestCount.toNat} of {config.requestCount.toNat} results match\n" =
        (Verdict.agreement workload.operations.length).report ++ "\n" := by
    rw [Verdict.report_agreement, hcount]
    simp [toString, String.append_assoc]
  refine ⟨generated, answered, checked, hgenerated, hanswered, hchecked, ?_⟩
  rw [hline]
  exact hprinted

end

/-! ## Command lines -/

/-- The command line that generates a workload into a file. -/
def generateLine (count length seed : UInt64) (output : String) : List String :=
  ["generate", s!"--count={count.toNat}", s!"--length={length.toNat}", s!"--seed={seed.toNat}",
    s!"--output={output}"]

/-- The command line that writes the expected outcomes of the operations in a file to another. -/
def oracleLine (input output : String) : List String :=
  ["oracle", s!"--input={input}", s!"--output={output}"]

/-- The command line that checks the outcomes in a file. -/
def checkLine (stream actual : String) : List String :=
  ["check", s!"--stream={stream}", s!"--actual={actual}"]

/-- The first command line asks for a workload with the digits of the three numbers. -/
theorem asks_generateLine (count length seed : UInt64) (output : String) :
    Asks (generateLine count length seed output)
      (.workload ⟨some (Decimal.write count.toNat), some (Decimal.write length.toNat),
        some (Decimal.write seed.toNat), none, some output⟩) := by
  have hline : generateLine count length seed output =
      "generate" :: [("count", Decimal.write count.toNat), ("length", Decimal.write length.toNat),
        ("seed", Decimal.write seed.toNat), ("output", output)].map assign := by
    simp [generateLine, assign, Decimal.write, toString]
  have hname : CommandName.ofName? "generate" = some .generate := rfl
  have htakes : ∀ name ∈ ["count", "length", "seed", "output"], takes .generate name = true := by
    decide
  rw [hline]
  refine ⟨false, ofArguments_assign hname ?_ ?_ rfl⟩
  · exact htakes
  · simp

/-- The second command line asks for expected outcomes. -/
theorem asks_oracleLine (input output : String) :
    Asks (oracleLine input output) (.expected (some input) (some output)) := by
  have hline : oracleLine input output =
      "oracle" :: [("input", input), ("output", output)].map assign := by
    simp [oracleLine, assign, toString]
  have hname : CommandName.ofName? "oracle" = some .oracle := rfl
  have htakes : ∀ name ∈ ["input", "output"], takes .oracle name = true := by
    decide
  rw [hline]
  refine ⟨false, ofArguments_assign hname ?_ ?_ rfl⟩
  · exact htakes
  · simp

/-- The third command line asks for a check with a report for people. -/
theorem asks_checkLine (stream actual : String) :
    Asks (checkLine stream actual) (.check stream actual false) := by
  have hline : checkLine stream actual =
      "check" :: [("stream", stream), ("actual", actual)].map assign := by
    simp [checkLine, assign, toString]
  have hname : CommandName.ofName? "check" = some .check := rfl
  have htakes : ∀ name ∈ ["stream", "actual"], takes .check name = true := by
    decide
  rw [hline]
  refine ⟨false, ofArguments_assign hname ?_ ?_ rfl⟩
  · exact htakes
  · simp

/-- On every lawful system, for all numbers of operations, lengths that are not zero and seeds, the
three commands in a row end with the exit code 0, where the first two write to files in different
places that can be read and written, and the check prints that all results match. This holds for
every command line whose options come to a configuration, whether its numbers come from options, a
configuration file or the user. More generally, a check of a stream against the outcomes that the
command for expected outcomes wrote for it ends with the exit code 0: from one file to the other,
and for every way in which that command was given the stream and its outcomes were kept. -/
theorem generate_oracle_check_exit_zero {σ Place : Type} [Host (StateM σ)] {view : View σ Place}
    (hview : view.Lawful) {stream actual : String} {streamPlace actualPlace : Place}
    (hstream : view.Serves stream streamPlace) (hactual : view.Serves actual actualPlace)
    (hne : streamPlace ≠ actualPlace) (before : σ) :
    (∀ count length seed : UInt64, length ≠ 0 →
      view.PassInTurn (generateLine count length seed stream) (oracleLine stream actual)
        (checkLine stream actual) before count.toNat) ∧
    (∀ (options : WorkloadOptions) (config : Config) (ready : σ),
      options.output = some stream → Configures options before config ready →
      ∀ generate oracle check, Asks generate (.workload options) →
        Asks oracle (.expected (some stream) (some actual)) →
        Asks check (.check stream actual false) →
        view.PassInTurn generate oracle check before config.requestCount.toNat) ∧
    (∀ oracle answered, Asks oracle (.expected (some stream) (some actual)) →
      Exits oracle before 0 answered →
      ∀ check json, Asks check (.check stream actual json) →
        ∃ checked, Exits check answered 0 checked) ∧
    (∀ input output oracle answered, Asks oracle (.expected input output) →
      Exits oracle before 0 answered →
      ∃ text answers, view.Gives before input text ∧
        view.Received output answers before answered ∧
        ∀ (later : σ) (stream actual : String),
          view.ReadAs later stream text → view.ReadAs later actual answers →
          ∀ check json, Asks check (.check stream actual json) →
            ∃ checked, Exits check later 0 checked) := by
  refine ⟨?_, ?_, ?_, ?_⟩
  · intro count length seed hlength
    exact passInTurn_of_configures hview hstream hactual hne rfl
      (configures_write hlength (some stream) before) (asks_generateLine count length seed stream)
      (asks_oracleLine stream actual) (asks_checkLine stream actual)
  · intro options config ready houtput hconfigures generate oracle check hgenerate horacle hcheck
    exact passInTurn_of_configures hview hstream hactual hne houtput hconfigures hgenerate horacle
      hcheck
  · intro oracle answered horacle hexits check json hcheck
    obtain ⟨text, answers, hholds, hexpected, hreceived⟩ :=
      expectedText_of_exits_oracle hview horacle hexits
    have hstill := View.Holds.of_received hholds hstream.place_eq hreceived hactual.place_eq hne
    obtain ⟨operations, checked, -, hchecked, -⟩ := exits_check_of_expectedText hview hexpected
      (hstream.readAs hstill) (hactual.readAs hreceived.holds) hcheck
    exact ⟨checked, hchecked⟩
  · intro input output oracle answered horacle hexits
    obtain ⟨text, answers, hgives, hexpected, hreceived⟩ :=
      expectedText_of_exits_oracle hview horacle hexits
    refine ⟨text, answers, hgives, hreceived, ?_⟩
    intro later stream actual hread hread' check json hcheck
    obtain ⟨operations, checked, -, hchecked, -⟩ :=
      exits_check_of_expectedText hview hexpected hread hread' hcheck
    exact ⟨checked, hchecked⟩

/-- From a world without files, three operations are generated, answered and checked; and a stream
with a value that is spelled like a marker is answered and checked. -/
theorem exit_zero_of_two_files :
    World.view.Lawful ∧ World.view.Serves "stream.txt" "stream.txt" ∧
    World.view.Serves "actual.txt" "actual.txt" ∧ "stream.txt" ≠ "actual.txt" ∧
    World.view.PassInTurn (generateLine 3 10 42 "stream.txt") (oracleLine "stream.txt" "actual.txt")
      (checkLine "stream.txt" "actual.txt") .empty 3 ∧
    ∃ answered checked,
      Exits (oracleLine "stream.txt" "actual.txt")
        (World.empty.put "stream.txt" "2\n2 A -ERROR-\n1 A\n") 0 answered ∧
      Exits (checkLine "stream.txt" "actual.txt") answered 0 checked := by
  have hleads : Path.Leads "stream.txt" "stream.txt" := Path.leads_name (by constructor <;> decide)
  have hleads' : Path.Leads "actual.txt" "actual.txt" := Path.leads_name (by constructor <;> decide)
  have hstream := World.serves_of_leads hleads
  have hactual := World.serves_of_leads hleads'
  have hne : "stream.txt" ≠ "actual.txt" := by decide
  refine ⟨World.lawful_view, hstream, hactual, hne, ?_, ?_⟩
  · exact (generate_oracle_check_exit_zero World.lawful_view hstream hactual hne .empty).1 3 10 42
      (by decide)
  · have hread := hstream.readAs (World.holds_put hleads "2\n2 A -ERROR-\n1 A\n" .empty)
    have hdecode : OperationStream.decode "2\n2 A -ERROR-\n1 A\n" =
        .ok ⟨[.write "A" "-ERROR-", .read "A"], 0⟩ := rfl
    have hexpected := Trial.value_expectedText_of_decode hdecode
    have horacle := asks_oracleLine "stream.txt" "actual.txt"
    obtain ⟨⟨answered, hanswered⟩, -⟩ :=
      horacle.exits (satisfies_expected World.lawful_view hread hexpected hactual)
    obtain ⟨checked, hchecked⟩ :=
      (generate_oracle_check_exit_zero World.lawful_view hstream hactual hne _).2.2.1 _ _ horacle
        hanswered _ false (asks_checkLine _ _)
    exact ⟨answered, checked, hanswered, hchecked⟩

end StoreTrial.Command
