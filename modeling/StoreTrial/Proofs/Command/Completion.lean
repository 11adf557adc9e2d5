import StoreTrial.Proofs.Command.Gathering
import StoreTrial.Proofs.Trial.SelfCheck
import StoreTrial.Proofs.Workload.Spelling

/-!
# Commands that nothing stands in the way of

A lawful system may refuse any access. A command does its work as far as the files that it names can
be read and written: `ReadAs` says of a path that it is read as a text, and `Serves` that it can be
written and read back at any time. Under these conditions each command comes to its answer and
leaves it (`satisfies_workload`, `satisfies_expected`, `satisfies_check`). In a world these are the
paths that have a text (`World.readAs_iff`) and those that lead to a file (`World.serves_of_leads`).
-/

namespace StoreTrial.Command

open Workload

namespace View

section

variable {σ Place : Type} (view : View σ Place) [Host (StateM σ)]

/-- As long as nothing changes, the file at the path is read as the text `text`. -/
def ReadAs (before : σ) (path text : String) : Prop :=
  ∀ state, view.Untouched before state →
    Satisfies (Host.readFile path) state fun result _ => result = .ok text

/-- The path leads to a place that can be read and written at any time. -/
structure Serves (path : String) (place : Place) : Prop where
  /-- The path leads to the place. -/
  place_eq : view.place? path = some place
  /-- A text that the file holds is read. -/
  readFile (text : String) (state : σ) (h : view.Holds state path text) :
    Satisfies (Host.readFile path) state fun result _ => result = .ok text
  /-- A text is written. -/
  writeFile (text : String) (state : σ) :
    Satisfies (Host.writeFile path text) state fun result _ => result = .ok ()

end

section

variable {σ Place : Type} {view : View σ Place} {before after : σ} {path other text : String}
  {place otherPlace : Place}

/-- A file that received a text holds it. -/
theorem Received.holds (h : view.Received (some path) text before after) :
    view.Holds after path text := by
  obtain ⟨-, place, hplace, hbytes, -⟩ := h
  exact ⟨place, text.toUTF8, hplace, hbytes, textOf_toUTF8 text⟩

/-- A file in another place holds what it held before. -/
theorem Holds.of_received (h : view.Holds before path text) (hplace : view.place? path = some place)
    {content : String} (hreceived : view.Received (some other) content before after)
    (hother : view.place? other = some otherPlace) (hne : place ≠ otherPlace) :
    view.Holds after path text := by
  obtain ⟨-, place', hplace', -, hframe⟩ := hreceived
  obtain ⟨place'', bytes, hplace'', hbytes, htext⟩ := h
  obtain rfl : otherPlace = place' := Option.some.inj (hother.symm.trans hplace')
  obtain rfl : place = place'' := Option.some.inj (hplace.symm.trans hplace'')
  exact ⟨place, bytes, hplace, (hframe place hne).trans hbytes, htext⟩

variable [Host (StateM σ)]

/-- A file that serves is read as what it holds. -/
theorem Serves.readAs (h : view.Serves path place) (hholds : view.Holds before path text) :
    view.ReadAs before path text :=
  fun state hstate => h.readFile text state (hstate.1.holds_iff.mpr hholds)

end

end View

/-- Whatever leads to a file of a world serves. -/
theorem World.serves_of_leads {path place : String} (h : Path.Leads path place) :
    World.view.Serves path place where
  place_eq := place?_of_leads h
  readFile text world := by
    rintro ⟨place', bytes, hplace', hbytes, htext⟩
    obtain rfl : place = place' := Option.some.inj ((place?_of_leads h).symm.trans hplace')
    have hread : world.text path = .ok text := by
      rw [text_of_leads h]
      have hfile : world.files place = some bytes := hbytes
      rw [hfile]
      exact htext
    exact hread
  writeFile text world := by
    have hreplace : world.replace path text = .ok (world.put place text) :=
      replace_eq_ok_iff.mpr ⟨place, h, rfl⟩
    unfold Satisfies
    rw [run_writeFile_of_ok hreplace]

/-- In a world, a path is read as the text that it has. -/
theorem World.readAs_iff {world : World} {path text : String} :
    World.view.ReadAs world path text ↔ world.text path = .ok text := by
  constructor
  · intro h
    exact h world (.refl world)
  · intro h state hstate
    have hread : state.text path = world.text path := by
      obtain ⟨place, hleads⟩ := leads_of_text h
      rw [text_of_leads hleads, text_of_leads hleads]
      have hfiles : state.files = world.files := hstate.1.1
      rw [hfiles]
    exact hread.trans h

/-- What is put in a place of a world is held there. -/
theorem World.holds_put {path place : String} (h : Path.Leads path place) (content : String)
    (world : World) : World.view.Holds (world.put place content) path content :=
  ⟨place, content.toUTF8, place?_of_leads h, if_pos rfl, textOf_toUTF8 content⟩

/-! ## Commands -/

section

variable {σ Place α : Type} {view : View σ Place} {before : σ} [Host (StateM σ)]
  (hview : view.Lawful)

include hview

/-- A file that is read as a text is found as that text. -/
theorem finds_readFile_of_readAs {path text : String} (h : view.ReadAs before path text) :
    view.Finds before (access (Host.readFile path)) (· = .ok text) := by
  refine (finds_access fun state hstate =>
    ((hview.readFile path state).and (h state hstate)).mono fun _ _ hafter =>
      ⟨hafter.1.1, hafter.2⟩).mono ?_
  rintro _ ⟨result, rfl, rfl⟩
  rfl

/-- A part of a trial that has a value comes to it. -/
theorem finds_trial_of_ok {part : Trial α} {a : α} (h : part.run.value = .ok a) :
    view.Finds before (trial part) (· = .ok a) := by
  rw [← h]
  exact finds_trial hview part

/-- Standard output receives what is written to it. -/
theorem satisfies_writeOutput (text : String) {state : σ} (hstate : view.Same before state) :
    Satisfies (ExceptT.run (liftM (Host.writeOutput (m := StateM σ) text) :
      Action (StateM σ) Unit)) state fun result after =>
        result = .ok () ∧ view.Received none text before after :=
  satisfies_lift.mpr ((hview.writeOutput text state).mono fun _ _ hreceived =>
    ⟨rfl, hreceived.of_same hstate⟩)

/-- A file that serves receives what is written to it. -/
theorem View.Serves.satisfies_writeTo {path : String} {place : Place} (h : view.Serves path place)
    (text : String) {state : σ} (hstate : view.Same before state) :
    Satisfies (writeTo (some path) text : Action (StateM σ) Unit).run state fun result after =>
      result = .ok () ∧ view.Received (some path) text before after := by
  refine satisfies_access.mpr (((h.writeFile text state).and
    (hview.writeFile path text state)).mono ?_)
  rintro _ after ⟨rfl, hreceived⟩
  exact ⟨rfl, hreceived.of_same hstate⟩

/-- A workload is written to a file that serves, if its options come to a configuration. It has as
many operations as that asks for, and can be read again. -/
theorem satisfies_workload {options : WorkloadOptions} {config : Config} {ready : σ}
    (hconfigures : Configures options before config ready) {path : String} {place : Place}
    (houtput : options.output = some path) (hpath : view.Serves path place) :
    Satisfies (perform (.workload options) : Action (StateM σ) Ending).run before
      fun result after => result = .ok .success ∧ ∃ (workload : Workload) (text : String),
        workload.operations.length = config.requestCount.toNat ∧
        OperationStream.decode text = .ok ⟨workload.operations, 0⟩ ∧
        view.Received (some path) text before after := by
  obtain ⟨hsame, -⟩ := resolves_of_configures hview hconfigures
  obtain ⟨plan, between, hgather, hconfigure⟩ := does_bind_ok_iff.mp hconfigures
  have hplan : plan.output = some path := (output_of_does_gather hgather).trans houtput
  have hseed : view.Finds ready (liftM (Host.freshSeed (m := StateM σ))) fun result =>
      ∃ a, result = .ok a := finds_lift_of_untouched hview.freshSeed
  refine hgather.satisfies_bind (hconfigure.satisfies_bind ?_)
  refine hseed.satisfies_bind (fun entropy _ drawn hdrawn => ?_) (by simp) (.refl ready)
  obtain ⟨workload, text, hworkload, hcount, htext, hdecode⟩ :=
    encode_generate hconfigures.length_ne_zero entropy
  have hencode : view.Finds ready (ExceptT.mk (pure workload.encode)) (· = .ok text) := by
    rw [htext]
    exact finds_known (.ok text)
  refine (finds_trial_of_ok hview hworkload).satisfies_bind_of_ok (fun made hmade => ?_) hdrawn
  refine (finds_keep hview _).satisfies_bind (fun _ _ kept hkept => ?_) (by simp) hmade
  refine hencode.satisfies_bind_of_ok (fun encoded hencoded => ?_) hkept
  rw [hplan]
  refine (satisfies_return
    (hpath.satisfies_writeTo hview text (hsame.trans hencoded.1)) Ending.success).mono ?_
  exact fun result after hafter => ⟨hafter.1, workload, text, hcount, hdecode, hafter.2⟩

/-- The expected outcomes of a stream that can be read are written to a file that serves. -/
theorem satisfies_expected {stream actual streamText answers : String} {place : Place}
    (hstream : view.ReadAs before stream streamText)
    (hexpected : (Trial.expectedText streamText).run.value = .ok answers)
    (hactual : view.Serves actual place) :
    Satisfies (perform (.expected (some stream) (some actual)) : Action (StateM σ) Ending).run
      before fun result after =>
        result = .ok .success ∧ view.Received (some actual) answers before after := by
  refine (finds_readFile_of_readAs hview hstream).satisfies_bind_of_ok (fun read hread => ?_)
    (.refl before)
  refine (finds_trial_of_ok hview hexpected).satisfies_bind_of_ok (fun made hmade => ?_) hread
  exact satisfies_return (hactual.satisfies_writeTo hview answers hmade.1) Ending.success

/-- The verdict on two streams that can be read is written, and decides how the check ends. -/
theorem satisfies_check {stream actual streamText actualText : String} {verdict : Verdict}
    (hstream : view.ReadAs before stream streamText)
    (hactual : view.ReadAs before actual actualText)
    (hverdict : (Trial.check streamText actualText).run.value = .ok verdict) (json : Bool) :
    Satisfies (perform (.check stream actual json) : Action (StateM σ) Ending).run before
      fun result after => result = .ok (if verdict.passed then .success else .failedCheck) ∧
        view.Received none ((if json then verdict.jsonReport else verdict.report) ++ "\n") before
          after := by
  obtain ⟨operations, hoperations, hrest⟩ := Trial.value_bind_eq_ok_iff.mp hverdict
  obtain ⟨outcomes, houtcomes, hscore⟩ := Trial.value_bind_eq_ok_iff.mp hrest
  refine (finds_readFile_of_readAs hview hstream).satisfies_bind_of_ok (fun _ hstate => ?_)
    (.refl before)
  refine (finds_trial_of_ok hview hoperations).satisfies_bind_of_ok (fun _ hstate => ?_) hstate
  refine (finds_readFile_of_readAs hview hactual).satisfies_bind_of_ok (fun _ hstate => ?_) hstate
  refine (finds_trial_of_ok hview houtcomes).satisfies_bind_of_ok (fun _ hstate => ?_) hstate
  refine (finds_trial_of_ok hview hscore).satisfies_bind_of_ok (fun scored hstate => ?_) hstate
  exact satisfies_return (satisfies_writeOutput hview _ hstate.1) _

end

/-! ## The program -/

section

variable {σ : Type} [Host (StateM σ)] {before : σ} {request : Request} {ending : Ending}
  {post : σ → Prop}

/-- The program ends as the command does. -/
theorem satisfies_run_of_ok
    (h : Satisfies (perform request : Action (StateM σ) Ending).run before fun result after =>
      result = .ok ending ∧ post after) :
    Satisfies (run request) before fun ending' after => ending' = ending ∧ post after := by
  obtain ⟨result, after, hrun⟩ : ∃ result after, StateT.run (m := Id)
      (ExceptT.run (perform request : Action (StateM σ) Ending)) before = (result, after) :=
    ⟨_, _, rfl⟩
  unfold Satisfies at h ⊢
  unfold run
  rw [StateT.run_bind]
  rw [hrun] at h ⊢
  obtain ⟨rfl, hpost⟩ := h
  exact ⟨rfl, hpost⟩

/-- Arguments that ask for a request exit, in the way in which the request ends. -/
theorem Asks.exits {arguments : List String} (hasks : Asks arguments request)
    (h : Satisfies (perform request : Action (StateM σ) Ending).run before fun result after =>
      result = .ok ending ∧ post after) :
    (∃ after, Exits arguments before ending.code after) ∧
      ∀ code after, Exits arguments before code after → code = ending.code ∧ post after := by
  obtain ⟨hending, hpost⟩ := satisfies_run_of_ok h
  refine ⟨⟨_, hasks.exits_iff.mpr ⟨hending ▸ rfl, rfl⟩⟩, ?_⟩
  rintro code after hexits
  obtain ⟨rfl, rfl⟩ := hasks.exits_iff.mp hexits
  exact ⟨congrArg Ending.code hending, hpost⟩

end

end StoreTrial.Command
