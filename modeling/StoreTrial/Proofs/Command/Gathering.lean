import StoreTrial.Proofs.Command.Views

/-!
# What commands take in

Before a command writes anything, it has read all that it needs. On a lawful system this leaves
files and standard output as they are, and what is read is what was there at the start: the content
of the files that are named (`finds_gather`, `satisfies_readFrom`) and the first line of standard
input if the user is asked (`satisfies_askCount`). `Resolves` says which configuration comes of
that.
-/

namespace StoreTrial.Command

open Workload

namespace View

variable {σ Place : Type} (view : View σ Place)

/-- What comes from a configuration file, if one is named. -/
def Reads (before : σ) (path : Option String) (file : Option Config) : Prop :=
  match path with
  | some path => ∃ text config, view.Holds before path text ∧
      Config.ofFile path (.ok text) = .ok config ∧ file = some config
  | none => file = none

/-- What the user answers if asked for the number of operations: the number in the first line of
standard input. -/
def answer (before : σ) : Except Fault UInt64 := do
  let line ← (textOf (firstLine (view.input before))).mapError .access
  readCount line

/-- The options, the file that they name and the answer of the user come to the configuration. -/
def Resolves (before : σ) (options : WorkloadOptions) (config : Config) : Prop :=
  ∃ file plan, view.Reads before options.config file ∧ Plan.ofOptions options file = .ok plan ∧
    (plan.resolve (ExceptT.mk (view.answer before)) : ExceptT Fault Id Config).run = .ok config

/-- The file that is named, or standard input if no file is named, gives the text. -/
def Gives (before : σ) (input : Option String) (text : String) : Prop :=
  match input with
  | some path => view.Holds before path text
  | none => textOf (view.input before) = .ok text

end View

section

variable {σ Place : Type} {view : View σ Place} {before state : σ} [Host (StateM σ)]
  (hview : view.Lawful)

include hview

/-- A plan is put together without a trace. -/
theorem finds_gather (options : WorkloadOptions) :
    view.Finds before (gather options) fun result => ∀ plan, result = .ok plan →
      ∃ file, view.Reads before options.config file ∧ Plan.ofOptions options file = .ok plan := by
  obtain ⟨count, length, seed, path, output⟩ := options
  have hplan : ∀ file, view.Reads before path file → view.Finds before
      (ExceptT.mk (pure (Plan.ofOptions ⟨count, length, seed, path, output⟩ file)))
        fun result => ∀ plan, result = .ok plan → ∃ file, view.Reads before path file ∧
          Plan.ofOptions ⟨count, length, seed, path, output⟩ file = .ok plan :=
    fun file hfile => (finds_known _).mono fun _ hknown _ hplan =>
      ⟨file, hfile, hknown.symm.trans hplan⟩
  unfold gather
  cases path with
  | none => exact hplan none rfl
  | some path =>
    refine (finds_lift fun _ => satisfies_readFile hview path).bind ?_ (by simp)
    rintro content ⟨_, ⟨⟩, hcontent⟩
    refine (finds_map_known some (Config.ofFile path content)).bind (fun file hfile => ?_)
      fun _ _ => nofun
    cases content with
    | error cause => contradiction
    | ok text =>
      cases hconfig : Config.ofFile path (.ok text) with
      | error fault =>
        rw [hconfig] at hfile
        contradiction
      | ok config =>
        rw [hconfig] at hfile
        exact hplan file ⟨text, config, hcontent text rfl, hconfig, Except.ok.inj hfile⟩

/-- A number is asked for without a trace, and it is the one in the first line of standard input. -/
theorem satisfies_askCount (hstate : view.Untouched before state) :
    Satisfies (askCount : Action (StateM σ) UInt64).run state fun result after =>
      view.Same before after ∧ ∀ count, result = .ok count → view.answer before = .ok count := by
  have hasked : view.Finds before
      (liftM (Host.writeError (m := StateM σ) (countQuestion ++ "\n"))) fun result =>
        ∃ a, result = .ok a := finds_lift_of_untouched (hview.writeError _)
  refine hasked.satisfies_bind (fun _ _ between hbetween => ?_) (by simp) hstate
  have hline : Satisfies (access (Host.readInputLine (m := StateM σ))).run between
      fun result after => view.Same before after ∧ ∀ line, result = .ok line →
        textOf (firstLine (view.input before)) = .ok line := by
    refine satisfies_access.mpr ((hview.readInputLine between).mono ?_)
    rintro result after ⟨hsame, hread⟩
    refine ⟨hbetween.1.trans hsame, fun line hresult => ?_⟩
    rw [← hbetween.2]
    exact hread line (mapError_eq_ok_iff.mp hresult.symm)
  refine satisfies_bind hline ?_ fun fault after hafter => ⟨hafter.1, nofun⟩
  rintro line after ⟨hsame, hread⟩
  refine satisfies_known.mpr ⟨hsame, fun count hcount => ?_⟩
  rw [View.answer, hread line rfl]
  exact hcount

/-- A plan comes to a configuration without a trace, with the answer in the first line of standard
input if it needs one. -/
theorem satisfies_configure (plan : Plan) (hstate : view.Untouched before state) :
    Satisfies (configure plan : Action (StateM σ) Config).run state fun result after =>
      view.Same before after ∧ ∀ config, result = .ok config →
        (plan.resolve (ExceptT.mk (view.answer before)) : ExceptT Fault Id Config).run =
          .ok config := by
  have hresolve : ∀ state, view.Untouched before state →
      Satisfies (plan.resolve (askCount : Action (StateM σ) UInt64)).run state fun result after =>
        view.Same before after ∧ ∀ config, result = .ok config →
          (plan.resolve (ExceptT.mk (view.answer before)) : ExceptT Fault Id Config).run =
            .ok config := by
    intro state hstate
    simp only [plan.resolve_eq]
    cases plan.givenCount? with
    | some count => exact satisfies_known.mpr ⟨hstate.1, fun config hconfig => hconfig⟩
    | none =>
      refine satisfies_bind (satisfies_askCount hview hstate) ?_ fun fault after hafter =>
        ⟨hafter.1, nofun⟩
      rintro count after ⟨hsame, hcount⟩
      refine satisfies_known.mpr ⟨hsame, fun config hconfig => ?_⟩
      rw [hcount count rfl]
      exact hconfig
  -- Whether or not the question is announced first, the rest is the same.
  unfold configure
  by_cases hcount : plan.needsCount = true
  · simp only [if_pos hcount]
    exact (finds_keep hview _).satisfies_bind (fun _ _ => hresolve) (by simp) hstate
  · simp only [if_neg hcount]
    exact hresolve state hstate

/-- What options come to is what they resolve to, and files and standard output are as before. -/
theorem resolves_of_configures {options : WorkloadOptions} {config : Config}
    (h : Configures options before config state) :
    view.Same before state ∧ view.Resolves before options config := by
  have hsatisfies : Satisfies (gather options >>= configure : Action (StateM σ) Config).run before
      fun result after => view.Same before after ∧
        ∀ config, result = .ok config → view.Resolves before options config := by
    refine (finds_gather hview options).satisfies_bind ?_
      (fun fault _ between hbetween => ⟨hbetween.1, nofun⟩) (.refl before)
    intro plan hplan between hbetween
    obtain ⟨file, hfile, hplan⟩ := hplan plan rfl
    refine (satisfies_configure hview plan hbetween).mono ?_
    exact fun result after hafter => ⟨hafter.1, fun config hconfig =>
      ⟨file, plan, hfile, hplan, hafter.2 config hconfig⟩⟩
  obtain ⟨hsame, hresolves⟩ := h.of_satisfies hsatisfies
  exact ⟨hsame, hresolves config rfl⟩

/-- A text is read from where it is asked to be read from. -/
theorem satisfies_readFrom (input : Option String) :
    Satisfies (readFrom input : Action (StateM σ) String).run before fun result after =>
      view.Same before after ∧ ∀ text, result = .ok text → view.Gives before input text := by
  cases input with
  | some path =>
    refine (finds_readFile hview path before (.refl before)).mono ?_
    exact fun result after hafter => ⟨hafter.1.1, hafter.2⟩
  | none =>
    refine satisfies_access.mpr ((hview.readInput before).mono ?_)
    rintro result after ⟨hsame, htext⟩
    exact ⟨hsame, fun text hresult => htext text (mapError_eq_ok_iff.mp hresult.symm)⟩

end

end StoreTrial.Command
