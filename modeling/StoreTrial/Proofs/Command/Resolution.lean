import StoreTrial.Proofs.Command.Configuration

/-!
# What a plan resolves to

The question for the number of operations is taken as one that counts how often it is asked
(`countedQuestion`), so that a run of `Plan.resolve` tells both what the plan resolves to and
whether the user was asked (`resolved_eq`). A plan that was gathered from options has no length of
zero, since neither options nor files pass one on (`finalLength_ne_zero`), so it fails only as the
question does. The main statement is `resolve_by_precedence`.
-/

namespace StoreTrial.Command

open Workload

namespace Plan

section

variable (plan : Plan)

/-! ## Questions that are counted -/

/-- A question with the answer `answer`, which counts how often it is asked. -/
def countedQuestion (answer : Except Fault UInt64) : ExceptT Fault (StateM Nat) UInt64 :=
  ExceptT.mk do
    modify (· + 1)
    return answer

/-- What the plan resolves to where the question has the answer `answer`, and how often the question
is asked. -/
def resolved (answer : Except Fault UInt64) : Except Fault Config × Nat :=
  StateT.run (m := Id) (ExceptT.run (plan.resolve (countedQuestion answer))) 0

/-- The question is asked once if no number of operations is given, and its fault is the fault of
the plan. Otherwise it is not asked. -/
theorem resolved_eq (answer : Except Fault UInt64) :
    plan.resolved answer =
      match plan.givenCount? with
      | some count => (plan.settle count, 0)
      | none => (answer.bind plan.settle, 1) := by
  unfold resolved
  rw [resolve_eq]
  cases plan.givenCount? with
  | some count => rfl
  | none => cases answer <;> rfl

/-- What a plan resolves to has the first number of operations that is given or answered, and the
length and seed of the plan. The length is not zero. -/
theorem resolved_eq_ok_iff {answer : Except Fault UInt64} {config : Config} :
    (plan.resolved answer).1 = .ok config ↔
      plan.finalLength ≠ 0 ∧ some config.requestCount = plan.givenCount?.or answer.toOption ∧
        config.length = plan.finalLength ∧ config.seed = plan.finalSeed := by
  obtain ⟨count, length, seed⟩ := config
  rw [resolved_eq]
  cases plan.givenCount? with
  | some given =>
    simp only [settle_eq_ok_iff, Option.some_or, Config.mk.injEq, Option.some.injEq]
  | none =>
    cases answer with
    | error fault => simp [Except.bind, Except.toOption]
    | ok given =>
      simp only [Except.bind, settle_eq_ok_iff, Except.toOption, Option.none_or, Config.mk.injEq,
        Option.some.injEq]

/-- There is a number of operations if the question is not asked or has an answer. -/
theorem isSome_count_iff {answer : Except Fault UInt64} :
    (plan.givenCount?.or answer.toOption).isSome ↔
      ¬(plan.count = none ∧ plan.file = none) ∨ ∃ count, answer = .ok count := by
  rw [← plan.givenCount?_eq_none_iff]
  cases plan.givenCount? with
  | some count => simp
  | none => cases answer <;> simp [Except.toOption]

/-- A plan resolves to a configuration exactly if there is a number of operations and the length is
not zero. -/
theorem exists_resolved_eq_ok_iff {answer : Except Fault UInt64} :
    (∃ config, (plan.resolved answer).1 = .ok config) ↔
      (plan.givenCount?.or answer.toOption).isSome ∧ plan.finalLength ≠ 0 := by
  constructor
  · rintro ⟨config, hconfig⟩
    obtain ⟨hlength, hcount, -, -⟩ := plan.resolved_eq_ok_iff.mp hconfig
    rw [← hcount]
    exact ⟨rfl, hlength⟩
  · rintro ⟨hcount, hlength⟩
    obtain ⟨count, hcount⟩ := Option.isSome_iff_exists.mp hcount
    exact ⟨⟨count, plan.finalLength, plan.finalSeed⟩,
      plan.resolved_eq_ok_iff.mpr ⟨hlength, hcount.symm, rfl, rfl⟩⟩

/-- A plan fails with the fault of the question if that is asked, and otherwise exactly if its
length is zero. -/
theorem resolved_eq_error_iff {answer : Except Fault UInt64} {fault : Fault} :
    (plan.resolved answer).1 = .error fault ↔
      (plan.givenCount? = none ∧ answer = .error fault) ∨
        ((plan.givenCount?.or answer.toOption).isSome ∧ plan.finalLength = 0 ∧
          fault = .invalidConfiguration .zeroLength) := by
  rw [resolved_eq]
  cases plan.givenCount? with
  | some given => simp [settle_eq_error_iff]
  | none =>
    cases answer with
    | error cause => simp [Except.bind, Except.toOption]
    | ok given => simp [Except.bind, Except.toOption, settle_eq_error_iff]

end

end Plan

/-! ## Plans that are gathered -/

/-- A value that an optional text is read as is read from that text. -/
theorem exists_of_mapM_eq_ok {α β : Type} {read : α → Except Fault β} {text? : Option α} {value : β}
    (h : text?.mapM read = .ok (some value)) : ∃ text, read text = .ok value := by
  cases text? with
  | none => cases h
  | some text =>
    rw [Option.mapM_some] at h
    refine ⟨text, ?_⟩
    cases hread : read text with
    | error fault =>
      rw [hread] at h
      contradiction
    | ok value' =>
      rw [hread] at h
      cases h
      rfl

/-- On any system, the length of a plan that is gathered is not zero: options and files are refused
with a length of zero, and the default is another number. -/
theorem finalLength_ne_zero {σ : Type} [Host (StateM σ)] {options : WorkloadOptions}
    {before after : σ} {plan : Plan} (h : Does (gather options) before (.ok plan) after) :
    plan.finalLength ≠ 0 := by
  obtain ⟨file?, hfile, hplan⟩ := exists_file_of_does_gather h
  obtain ⟨count, length?, seed, -, hlength, -, rfl⟩ := ofOptions_eq_ok_iff.mp hplan
  unfold Plan.finalLength
  cases length? with
  | some length =>
    obtain ⟨text, hread⟩ := exists_of_mapM_eq_ok hlength
    exact (readLength_eq_ok_iff.mp hread).2
  | none =>
    cases file? with
    | some file =>
      obtain ⟨path, content, hread⟩ := hfile file rfl
      exact length_ne_zero_of_ofFile hread
    | none => exact (by decide : (10 : UInt64) ≠ 0)

/-- A plan takes each number from the first source that gives it. The user is asked exactly if
neither an option nor a file is there to give the number of operations. The plan resolves to a
configuration exactly if the user is not asked or answers, and the length is not zero. The number of
operations is then that of the option, the file or the user, the length that of the option or the
file or the default 10, and the seed that of the option or the file. A fault of the question is the
fault of the plan, even if the length is zero as well. A plan that is gathered from options and the
file that they name, on whatever system, has no other fault, and resolves to configurations that are
valid and that a generator takes. -/
theorem resolve_by_precedence :
    (∀ (plan : Plan) (answer : Except Fault UInt64),
      let length := (plan.length.or (plan.file.map Config.length)).getD 10
      let seed := plan.seed.or (plan.file.bind Config.seed)
      let count? := (plan.count.or (plan.file.map Config.requestCount)).or answer.toOption
      (plan.resolved answer).2 = (if plan.count = none ∧ plan.file = none then 1 else 0) ∧
      ((∃ config, (plan.resolved answer).1 = .ok config) ↔
        (¬(plan.count = none ∧ plan.file = none) ∨ ∃ count, answer = .ok count) ∧ length ≠ 0) ∧
      (∀ config, (plan.resolved answer).1 = .ok config →
        some config.requestCount = count? ∧ config.length = length ∧ config.seed = seed) ∧
      (∀ fault, (plan.resolved answer).1 = .error fault ↔
        (plan.count = none ∧ plan.file = none ∧ answer = .error fault) ∨
        (count?.isSome ∧ length = 0 ∧ fault = .invalidConfiguration .zeroLength))) ∧
    (∀ (σ : Type) [Host (StateM σ)] (options : WorkloadOptions) (before after : σ) (plan : Plan),
      Does (gather options) before (.ok plan) after → ∀ answer,
      (∀ fault, (plan.resolved answer).1 = .error fault ↔
        plan.count = none ∧ plan.file = none ∧ answer = .error fault) ∧
      (∀ config, (plan.resolved answer).1 = .ok config → config.validate = .ok config ∧
        ∀ entropy, ∃ generator, Generator.ofConfig config entropy = .ok generator)) := by
  refine ⟨fun plan answer => ?_, fun σ _ options before after plan hgather answer => ⟨?_, ?_⟩⟩
  · intro length seed count?
    refine ⟨?_, ?_, ?_, ?_⟩
    · rw [Plan.resolved_eq]
      cases hgiven : plan.givenCount? with
      | none => rw [if_pos (plan.givenCount?_eq_none_iff.mp hgiven)]
      | some count =>
        rw [if_neg (mt plan.givenCount?_eq_none_iff.mpr (by rw [hgiven]; nofun))]
    · rw [← plan.isSome_count_iff]
      exact plan.exists_resolved_eq_ok_iff
    · intro config hconfig
      exact (plan.resolved_eq_ok_iff.mp hconfig).2
    · intro fault
      rw [plan.resolved_eq_error_iff, plan.givenCount?_eq_none_iff, and_assoc]
      rfl
  · intro fault
    rw [plan.resolved_eq_error_iff, plan.givenCount?_eq_none_iff, and_assoc]
    exact or_iff_left fun h => finalLength_ne_zero hgather h.2.1
  · intro config hconfig
    obtain ⟨-, -, hlength, -⟩ := plan.resolved_eq_ok_iff.mp hconfig
    have hne : config.length ≠ 0 := hlength ▸ finalLength_ne_zero hgather
    exact ⟨Config.validate_eq_ok_iff.mpr ⟨hne, rfl⟩, fun entropy =>
      ⟨_, (generate_eq_getD hne entropy).1⟩⟩

/-- An option wins over a file, which gives the rest of the configuration, and nothing is asked. A
plan without either fails as the question does, although its length is zero. -/
theorem option_wins_over_file :
    let world := World.empty.put "w.toml" (Config.numbersFile 5 7 42)
    let plan : Plan := ⟨some ⟨5, 7, some 42⟩, some 9, none, none, none⟩
    let unanswered : Except Fault UInt64 := .error (.access .notText)
    Does (gather ⟨some " 9", none, none, some "w.toml", none⟩) world (.ok plan) world ∧
      plan.resolved unanswered = (.ok ⟨9, 7, some 42⟩, 0) ∧
      (∃ generator, Generator.ofConfig ⟨9, 7, some 42⟩ 0 = .ok generator) ∧
      (⟨none, none, some 0, none, none⟩ : Plan).resolved unanswered =
        (.error (.access .notText), 1) := by
  intro world plan unanswered
  have hleads : Path.Leads "w.toml" "w.toml" := Path.leads_name (by constructor <;> decide)
  have hfile : Config.ofFile "w.toml" (world.text "w.toml") = .ok ⟨5, 7, some 42⟩ := by
    have hread : Config.ofText (Config.numbersFile 5 7 42) = .ok ⟨5, 7, some 42⟩ := by
      rw [Config.ofText_numbersFile _ _ _ (by decide), if_pos (by decide)]
    rw [World.text_put_self hleads]
    exact Config.ofFile_of_ofText hread
  have hgather : Does (gather ⟨some " 9", none, none, some "w.toml", none⟩) world (.ok plan)
      world := by
    rw [does_gather_iff, Option.mapM_some, hfile]
    exact ⟨rfl, rfl⟩
  have hresolved : plan.resolved unanswered = (.ok ⟨9, 7, some 42⟩, 0) := rfl
  obtain ⟨-, hvalid⟩ := resolve_by_precedence.2 World _ world world plan hgather unanswered
  exact ⟨hgather, hresolved, (hvalid ⟨9, 7, some 42⟩ rfl).2 0, rfl⟩

end StoreTrial.Command
