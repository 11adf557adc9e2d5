import StoreTrial.Command.Run
import StoreTrial.Proofs.Command.Files
import StoreTrial.Proofs.Command.Plan

/-!
# What actions do

`Does` relates an action to the state that it starts in, its result and the state that it leaves, on
any system. A sequence of actions does what its parts do one after the other, up to the first fault
(`does_bind_ok_iff`, `does_bind_error_iff`). `Configures` says which configuration the options of a
workload come to, and `Exits` with which exit code the program ends on its arguments. In a world,
where nothing but the file that is named can be in the way, what is gathered from options can be
told from the file alone (`does_gather_iff`).
-/

namespace StoreTrial.Command

open Workload

/-- From the state `before`, the action has the result `result` and leaves the state `after`. -/
def Does {σ α : Type} (action : Action (StateM σ) α) (before : σ) (result : Except Fault α)
    (after : σ) : Prop :=
  StateT.run (m := Id) (ExceptT.run action) before = (result, after)

section

variable {σ α β : Type} {before after : σ}

/-! ## Parts of commands -/

/-- A result that is known has no effect. -/
theorem does_known_iff {known result : Except Fault α} :
    Does (ExceptT.mk (pure known)) before result after ↔ result = known ∧ after = before := by
  change (known, before) = (result, after) ↔ _
  rw [Prod.mk.injEq, eq_comm, @eq_comm _ before]

/-- Nor has turning it into something else. -/
theorem does_map_known_iff {f : α → β} {known : Except Fault α} {result : Except Fault β} :
    Does (f <$> ExceptT.mk (pure known)) before result after ↔
      result = known.map f ∧ after = before := by
  cases known with
  | error fault => exact does_known_iff
  | ok a => exact does_known_iff

/-- A value that is returned has no effect. -/
theorem does_pure_iff {a : α} {result : Except Fault α} :
    Does (pure a) before result after ↔ result = .ok a ∧ after = before :=
  does_known_iff

section

variable {action : Action (StateM σ) α} {next : α → Action (StateM σ) β}
  {result : Except Fault β} {between : σ}

/-- A sequence of two actions goes on from what the first one did. -/
theorem run_bind (action : Action (StateM σ) α) (next : α → Action (StateM σ) β) (before : σ) :
    StateT.run (m := Id) (ExceptT.run (action >>= next)) before =
      StateT.run (m := Id)
        (ExceptT.bindCont next (StateT.run (m := Id) (ExceptT.run action) before).1)
        (StateT.run (m := Id) (ExceptT.run action) before).2 := rfl

/-- What follows an action with a value starts from that value in the state that the action
leaves. -/
theorem does_bind_of_ok {a : α} (h : Does action before (.ok a) between) :
    Does (action >>= next) before result after ↔ Does (next a) between result after := by
  unfold Does at h ⊢
  rw [run_bind, h]
  rfl

/-- Nothing follows an action with a fault. -/
theorem does_bind_of_error {fault : Fault} (h : Does action before (.error fault) between) :
    Does (action >>= next) before result after ↔ result = .error fault ∧ after = between := by
  rw [← does_known_iff]
  unfold Does at h ⊢
  rw [run_bind, h]
  rfl

end

/-- A sequence of two actions has a value exactly if both have one, in turn. -/
theorem does_bind_ok_iff {action : Action (StateM σ) α} {next : α → Action (StateM σ) β} {b : β} :
    Does (action >>= next) before (.ok b) after ↔
      ∃ a between, Does action before (.ok a) between ∧ Does (next a) between (.ok b) after := by
  constructor
  · intro h
    obtain ⟨first, between, hfirst⟩ : ∃ first between, Does action before first between :=
      ⟨_, _, rfl⟩
    cases first with
    | error fault =>
      rw [does_bind_of_error hfirst] at h
      exact absurd h.1 (by simp)
    | ok a => exact ⟨a, between, hfirst, (does_bind_of_ok hfirst).mp h⟩
  · rintro ⟨a, between, hfirst, hnext⟩
    exact (does_bind_of_ok hfirst).mpr hnext

/-- A sequence of two actions has a fault exactly if the first one has it, or the second one does
after the first. -/
theorem does_bind_error_iff {action : Action (StateM σ) α} {next : α → Action (StateM σ) β}
    {fault : Fault} :
    Does (action >>= next) before (.error fault) after ↔
      Does action before (.error fault) after ∨
        ∃ a between, Does action before (.ok a) between ∧
          Does (next a) between (.error fault) after := by
  constructor
  · intro h
    obtain ⟨first, between, hfirst⟩ : ∃ first between, Does action before first between :=
      ⟨_, _, rfl⟩
    cases first with
    | error cause =>
      obtain ⟨⟨⟩, rfl⟩ := (does_bind_of_error hfirst).mp h
      exact .inl hfirst
    | ok a => exact .inr ⟨a, between, hfirst, (does_bind_of_ok hfirst).mp h⟩
  · rintro (h | ⟨a, between', h, hnext⟩)
    · exact (does_bind_of_error h).mpr ⟨rfl, rfl⟩
    · exact (does_bind_of_ok h).mpr hnext

/-- An action of the system alone has no fault. -/
theorem does_lift_iff {action : StateM σ α} {result : Except Fault α} :
    Does (liftM action) before result after ↔
      result = .ok (StateT.run (m := Id) action before).1 ∧
        after = (StateT.run (m := Id) action before).2 := by
  change (Except.ok (StateT.run (m := Id) action before).1,
    (StateT.run (m := Id) action before).2) = (result, after) ↔ _
  rw [Prod.mk.injEq, eq_comm, @eq_comm _ after]

end

/-! ## Configurations -/

section

variable {σ : Type} [Host (StateM σ)] {options : WorkloadOptions} {before after : σ}

/-- The options of a workload, the file that they name and the answer of the user come to the
configuration `config`, and leave the system as `ready`. -/
def Configures (options : WorkloadOptions) (before : σ) (config : Config) (ready : σ) : Prop :=
  Does (gather options >>= configure) before (.ok config) ready

/-- A plan is gathered from the options and the configuration file that they name, if they name
one. -/
theorem exists_file_of_does_gather {plan : Plan}
    (h : Does (gather options) before (.ok plan) after) :
    ∃ file, (∀ config, file = some config →
        ∃ path content, Config.ofFile path content = .ok config) ∧
      Plan.ofOptions options file = .ok plan := by
  unfold gather at h
  split at h
  · rename_i path _
    obtain ⟨content, between, -, hrest⟩ := does_bind_ok_iff.mp h
    obtain ⟨file, between', hfile, hknown⟩ := does_bind_ok_iff.mp hrest
    refine ⟨file, ?_, (does_known_iff.mp hknown).1.symm⟩
    rintro config rfl
    have hread := (does_map_known_iff.mp hfile).1
    refine ⟨path, content, ?_⟩
    cases hconfig : Config.ofFile path content with
    | error fault =>
      rw [hconfig] at hread
      contradiction
    | ok config' =>
      rw [hconfig] at hread
      rw [Option.some.inj (Except.ok.inj hread)]
  · obtain ⟨file, between, hnone, hknown⟩ := does_bind_ok_iff.mp h
    obtain ⟨⟨⟩, -⟩ := does_pure_iff.mp hnone
    exact ⟨none, nofun, (does_known_iff.mp hknown).1.symm⟩

/-- What is gathered from options writes to where the options say. -/
theorem output_of_does_gather {plan : Plan} (h : Does (gather options) before (.ok plan) after) :
    plan.output = options.output := by
  obtain ⟨file, -, hplan⟩ := exists_file_of_does_gather h
  exact output_of_ofOptions hplan

/-- A plan that comes to a configuration settles on it with some number of operations. -/
theorem exists_settle_of_does_configure {plan : Plan} {config : Config}
    (h : Does (configure plan) before (.ok config) after) :
    ∃ count, plan.settle count = .ok config := by
  have hresolve : ∀ between, Does (plan.resolve askCount) between (.ok config) after →
      ∃ count, plan.settle count = .ok config := by
    intro between h
    rw [plan.resolve_eq] at h
    cases hgiven : plan.givenCount? with
    | some count =>
      rw [hgiven] at h
      exact ⟨count, (does_known_iff.mp h).1.symm⟩
    | none =>
      rw [hgiven] at h
      obtain ⟨count, asked, -, hknown⟩ := does_bind_ok_iff.mp h
      exact ⟨count, (does_known_iff.mp hknown).1.symm⟩
  -- Whether or not the question is announced first, the rest is the same.
  unfold configure at h
  by_cases hcount : plan.needsCount = true
  · simp only [if_pos hcount] at h
    obtain ⟨-, between, -, hrest⟩ := does_bind_ok_iff.mp h
    exact hresolve between hrest
  · simp only [if_neg hcount] at h
    exact hresolve before h

/-- What options come to is a configuration that a workload can have. -/
theorem Configures.length_ne_zero {config : Config} (h : Configures options before config after) :
    config.length ≠ 0 := by
  obtain ⟨plan, between, -, hconfigure⟩ := does_bind_ok_iff.mp h
  obtain ⟨count, hsettle⟩ := exists_settle_of_does_configure hconfigure
  obtain ⟨hlength, rfl⟩ := plan.settle_eq_ok_iff.mp hsettle
  exact hlength

end

section

variable {world after : World}

/-- What is gathered from options depends on the file that they name, and nothing changes. -/
theorem does_gather_iff {options : WorkloadOptions} {result : Except Fault Plan} :
    Does (gather options) world result after ↔
      result = (do
        let file ← options.config.mapM fun path => Config.ofFile path (world.text path)
        Plan.ofOptions options file) ∧ after = world := by
  unfold gather
  cases options.config with
  | none => exact (does_bind_of_ok (does_pure_iff.mpr ⟨rfl, rfl⟩)).trans does_known_iff
  | some path =>
    have hread : Does (liftM (Host.readFile (m := StateM World) path)) world
        (.ok (world.text path)) world := does_lift_iff.mpr ⟨rfl, rfl⟩
    have hfile : Does (some <$> ExceptT.mk (pure (Config.ofFile path (world.text path)))) world
        ((Config.ofFile path (world.text path)).map some) world :=
      does_map_known_iff.mpr ⟨rfl, rfl⟩
    refine (does_bind_of_ok hread).trans ?_
    rw [Option.mapM_some]
    cases hcontent : Config.ofFile path (world.text path) with
    | error fault =>
      rw [hcontent] at hfile
      exact does_bind_of_error hfile
    | ok config =>
      rw [hcontent] at hfile
      exact (does_bind_of_ok hfile).trans does_known_iff

/-- In a world it makes no difference that the question is announced first. -/
theorem does_configure_iff {plan : Plan} {result : Except Fault Config} :
    Does (configure plan) world result after ↔
      Does (plan.resolve askCount) world result after := by
  unfold configure
  by_cases hcount : plan.needsCount = true
  · simp only [if_pos hcount]
    exact does_bind_of_ok (does_lift_iff.mpr ⟨rfl, rfl⟩)
  · simp only [if_neg hcount]

end

/-! ## The program -/

/-- The arguments of the program ask for `request`. -/
def Asks (arguments : List String) (request : Request) : Prop :=
  ∃ verbose, Invocation.ofArguments arguments = .ok ⟨request, verbose⟩

/-- Arguments ask for one request at most. -/
theorem Asks.unique {arguments : List String} {request request' : Request}
    (h : Asks arguments request) (h' : Asks arguments request') : request = request' := by
  obtain ⟨verbose, h⟩ := h
  obtain ⟨verbose', h'⟩ := h'
  rw [h] at h'
  cases h'
  rfl

section

variable {σ : Type} [Host (StateM σ)] {before after : σ}

/-- With these arguments in the state `before`, the program does what it is asked for, ends with the
exit code `code` and leaves the state `after`. -/
def Exits (arguments : List String) (before : σ) (code : UInt32) (after : σ) : Prop :=
  ∃ request ending, Asks arguments request ∧
    StateT.run (m := Id) (run request) before = (ending, after) ∧ ending.code = code

/-- Arguments that ask for a request exit as it ends. -/
theorem Asks.exits_iff {arguments : List String} {request : Request} (h : Asks arguments request)
    {code : UInt32} :
    Exits arguments before code after ↔
      code = (StateT.run (m := Id) (run request) before).1.code ∧
        after = (StateT.run (m := Id) (run request) before).2 := by
  constructor
  · rintro ⟨request', ending, hrequest, hrun, rfl⟩
    rw [h.unique hrequest, hrun]
    exact ⟨rfl, rfl⟩
  · rintro ⟨rfl, rfl⟩
    exact ⟨request, _, h, rfl, rfl⟩

end

end StoreTrial.Command
