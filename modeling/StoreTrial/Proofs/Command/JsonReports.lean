import StoreTrial.Proofs.Command.Completion
import StoreTrial.Proofs.Json.Records
import StoreTrial.Proofs.Verdict.Positions

/-!
# Reports in JSON are faithful

What a check prints for programs is a text of the verdict and nothing else: the counts of a verdict
on two streams fit in 64 bits, since the streams announce as many entries (`fits_compare`), and so
the verdict is read back from its report. What a program reads there thus tells it the exit code as
well. A report on a fault is an object with the text of the fault in its only member, whatever the
fault quotes. The main statement is `json_reports_faithful`.
-/

namespace StoreTrial

/-- The counts and positions of a comparison fit in 64 bits if the lengths of the two lists do. -/
theorem Verdict.fits_compare {expected actual : List Outcome}
    (hexpected : expected.length < UInt64.size) (hactual : actual.length < UInt64.size) :
    (compare expected actual).Fits := by
  have hcount : (differences expected actual).length ≤ min expected.length actual.length := by
    rw [length_differences]
    exact length_differing_le expected actual
  have hindex : ∀ mismatch ∈ differences expected actual, mismatch.index < expected.length := by
    intro mismatch hmem
    have hdiffers : mismatch.index ∈ (differences expected actual).map Mismatch.index :=
      List.mem_map_of_mem hmem
    rw [map_index_differences] at hdiffers
    have hrange := List.mem_range.mp (List.mem_filter.mp hdiffers).1
    omega
  rw [compare_eq]
  refine ⟨hexpected, hactual, ?_, ?_, fun mismatch hmem => ?_⟩
  · show min expected.length actual.length - (differences expected actual).length < UInt64.size
    omega
  · show (differences expected actual).length < UInt64.size
    omega
  · exact Nat.lt_trans (hindex mismatch (List.mem_of_mem_take hmem)) hexpected

/-- A verdict whose counts fit is read back from the line with its report for programs. -/
theorem Verdict.Fits.read?_jsonReport {verdict : Verdict} (h : verdict.Fits) :
    Json.read? (verdict.jsonReport ++ "\n") = some verdict := by
  unfold Json.read? jsonReport
  rw [Json.parse?_pretty_lineFeed]
  exact Json.recovers_verdict h _ (.refl _)

namespace Command

/-- On every lawful system, a check with a report for programs of two files that are read and well
formed prints a text that is read as the verdict on them, and nothing else. It ends with the exit
code 0 if what is read has one number of expected and actual outcomes and no mismatches, and with
the exit code 1 otherwise. Its report on a fault is an object whose only member has the text of the
fault, whatever characters are in it. -/
theorem json_reports_faithful {σ Place : Type} [Host (StateM σ)] {view : View σ Place}
    (hview : view.Lawful) :
    (∀ arguments stream actual before streamText actualText operations outcomes,
      Asks arguments (.check stream actual true) →
      view.ReadAs before stream streamText → view.ReadAs before actual actualText →
      OperationStream.decode streamText = .ok operations →
      OutcomeStream.decode actualText = .ok outcomes →
      ∃ (printed : String) (verdict : Verdict),
        Json.read? printed = some verdict ∧
        verdict = (verify (replay operations.entries).value outcomes.entries).value ∧
        (∃ code after, Exits arguments before code after) ∧
        ∀ code after, Exits arguments before code after →
          code = (if verdict.expectedCount = verdict.actualCount ∧ verdict.mismatchCount = 0 then 0
            else 1) ∧
          view.Received none printed before after) ∧
    (∀ (stream actual : String) (fault : Fault),
      Json.parse? (faultReport (.check stream actual true) fault) =
        some (.object [("error", .string fault.message)])) := by
  refine ⟨?_, fun _ _ _ => Json.parse?_pretty _⟩
  intro arguments stream actual before streamText actualText operations outcomes hasks hstream
    hactual hoperations houtcomes
  have hexpected : (replay operations.entries).value.length < UInt64.size := by
    rw [length_replay]
    exact Frame.length_lt_of_decode hoperations
  have hfits := Verdict.fits_compare hexpected (Frame.length_lt_of_decode houtcomes)
  have hverdict := Trial.value_check_eq_ok_iff.mpr
    ⟨operations, outcomes, hoperations, houtcomes, rfl⟩
  obtain ⟨⟨after, hexits⟩, hall⟩ :=
    hasks.exits (satisfies_check hview hstream hactual hverdict true)
  refine ⟨_, _, hfits.read?_jsonReport, rfl, ⟨_, after, hexits⟩, fun code after hexits => ?_⟩
  obtain ⟨rfl, hreceived⟩ := hall code after hexits
  refine ⟨?_, hreceived⟩
  rw [apply_ite Ending.code]
  simp only [Verdict.passed, Bool.and_eq_true, beq_iff_eq]
  rfl

/-- Where a write is answered by a text with a quotation mark, a backslash, a control character and
a letter beyond ASCII, a check prints a verdict that is read back, and ends with the exit code 1. -/
theorem json_report_of_escaped_value :
    let arguments := ["check", "--stream=s.txt", "--actual=a.txt", "--json"]
    let world := (World.empty.put "s.txt" "1\n2 A B\n").put "a.txt" "1\n\"\\\x01é\n"
    World.view.Lawful ∧ Asks arguments (.check "s.txt" "a.txt" true) ∧
      World.view.ReadAs world "s.txt" "1\n2 A B\n" ∧
      World.view.ReadAs world "a.txt" "1\n\"\\\x01é\n" ∧
      ∃ printed after, Json.read? printed =
          some (⟨1, 1, 0, 1, [⟨0, .success, .value "\"\\\x01é"⟩]⟩ : Verdict) ∧
        Exits arguments world 1 after ∧ after.output = printed := by
  intro arguments world
  have hasks : Asks arguments (.check "s.txt" "a.txt" true) := by
    refine ⟨false, ?_⟩
    unfold Invocation.ofArguments Invocation.read
    rfl
  have hleads : Path.Leads "s.txt" "s.txt" := Path.leads_name (by constructor <;> decide)
  have hleads' : Path.Leads "a.txt" "a.txt" := Path.leads_name (by constructor <;> decide)
  have hne : "s.txt" ≠ "a.txt" := by decide
  have hstream : World.view.ReadAs world "s.txt" "1\n2 A B\n" :=
    World.readAs_iff.mpr
      ((World.text_put_of_ne hleads hne _ _).trans (World.text_put_self hleads _ _))
  have hactual : World.view.ReadAs world "a.txt" "1\n\"\\\x01é\n" :=
    World.readAs_iff.mpr (World.text_put_self hleads' _ _)
  have hoperations : OperationStream.decode "1\n2 A B\n" = .ok ⟨[.write "A" "B"], 0⟩ := rfl
  have houtcomes : OutcomeStream.decode "1\n\"\\\x01é\n" = .ok ⟨[.value "\"\\\x01é"], 0⟩ := rfl
  obtain ⟨printed, verdict, hprinted, rfl, ⟨code, after, hexits⟩, hall⟩ :=
    (json_reports_faithful World.lawful_view).1 arguments "s.txt" "a.txt" world _ _ _ _ hasks
      hstream hactual hoperations houtcomes
  obtain ⟨rfl, -, houtput⟩ := hall code after hexits
  exact ⟨World.lawful_view, hasks, hstream, hactual, printed, after, hprinted, hexits,
    houtput.trans String.empty_append⟩

end Command

end StoreTrial
