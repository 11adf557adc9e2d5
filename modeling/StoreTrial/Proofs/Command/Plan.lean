import StoreTrial.Command.Plan
import StoreTrial.Proofs.Text.Numerals

/-!
# What a plan comes to

A number is read from the texts that spell it (`readNumber_eq_ok_iff`), and a plan has the numbers
that its options give (`ofOptions_eq_ok_iff`). What it comes to takes each number from the first
source that gives it: an option, then the configuration file, then the user or the default
(`givenCount?`, `finalLength`, `finalSeed`). The user is asked only for a number of operations that
no other source gives, before anything is looked at, so a fault of the question comes first
(`Plan.resolve_eq`). The one other fault is a length of zero (`Plan.settle_eq_error_iff`).
-/

namespace StoreTrial.Command

open Text Workload

/-! ## Numbers in options -/

/-- A number is read from a text exactly if the text spells it. -/
theorem readNumber_eq_ok_iff {fault : String → ConfigFault} {text : String} {n : UInt64} :
    readNumber fault text = .ok n ↔ Decimal.Spells text.toList n.toNat := by
  rw [← Decimal.denotes_trim_iff, ← Decimal.read?_eq_some_iff]
  simp only [readNumber]
  cases Decimal.read? (trim text.toList) <;> simp

/-- A text is refused as a number exactly if it spells none of 64 bits. -/
theorem readNumber_eq_error_iff {fault : String → ConfigFault} {text : String} {cause : Fault} :
    readNumber fault text = .error cause ↔
      cause = .invalidConfiguration (fault (String.ofList (trim text.toList))) ∧
        ∀ n : UInt64, ¬ Decimal.Spells text.toList n.toNat := by
  have hspells : ∀ n : UInt64, Decimal.Spells text.toList n.toNat ↔
      Decimal.read? (trim text.toList) = some n := by
    intro n
    rw [← Decimal.denotes_trim_iff, Decimal.read?_eq_some_iff]
  simp only [hspells, readNumber]
  cases Decimal.read? (trim text.toList) <;> simp [eq_comm]

/-- A length is read from a text exactly if the text spells it and it is not zero. -/
theorem readLength_eq_ok_iff {text : String} {n : UInt64} :
    readLength text = .ok n ↔ Decimal.Spells text.toList n.toNat ∧ n ≠ 0 := by
  rw [← readNumber_eq_ok_iff]
  unfold readLength
  cases readNumber .badLength text with
  | error fault => simp [bind, Except.bind]
  | ok number =>
    simp only [bind, Except.bind]
    split
    · rename_i hzero
      refine iff_of_false nofun ?_
      rintro ⟨hread, hne⟩
      exact hne (Except.ok.inj hread ▸ hzero)
    · rename_i hne
      rw [Except.ok.injEq]
      exact ⟨fun h => ⟨h, h ▸ hne⟩, fun h => h.1⟩

/-- A text is refused as a length exactly if it spells no other number of 64 bits than zero. -/
theorem readLength_eq_error_iff {text : String} {cause : Fault} :
    readLength text = .error cause ↔
      cause = .invalidConfiguration (.badLength (String.ofList (trim text.toList))) ∧
        ∀ n : UInt64, n ≠ 0 → ¬ Decimal.Spells text.toList n.toNat := by
  unfold readLength
  cases hnumber : readNumber .badLength text with
  | error fault =>
    obtain ⟨rfl, hnone⟩ := readNumber_eq_error_iff.mp hnumber
    simp only [bind, Except.bind, Except.error.injEq]
    exact ⟨fun h => ⟨h.symm, fun n _ => hnone n⟩, fun h => h.1.symm⟩
  | ok number =>
    have hspells := readNumber_eq_ok_iff.mp hnumber
    simp only [bind, Except.bind]
    split
    · rename_i hzero
      rw [Except.error.injEq]
      refine ⟨fun h => ⟨h.symm, fun n hne hother => hne ?_⟩, fun h => h.1.symm⟩
      rw [← UInt64.toNat_inj.mp (hspells.unique hother), hzero]
    · rename_i hne
      exact iff_of_false nofun fun h => h.2 number hne hspells

/-! ## Plans of options -/

/-- There is a plan of options exactly if no number of them is refused, and it has these numbers. -/
theorem ofOptions_eq_ok_iff {options : WorkloadOptions} {file : Option Config} {plan : Plan} :
    Plan.ofOptions options file = .ok plan ↔
      ∃ count length seed, options.count.mapM readCount = .ok count ∧
        options.length.mapM readLength = .ok length ∧ options.seed.mapM readSeed = .ok seed ∧
        plan = ⟨file, count, length, seed, options.output⟩ := by
  unfold Plan.ofOptions
  cases options.count.mapM readCount with
  | error fault => simp [bind, Except.bind]
  | ok count =>
    cases options.length.mapM readLength with
    | error fault => simp [bind, Except.bind]
    | ok length =>
      cases options.seed.mapM readSeed with
      | error fault => simp [bind, Except.bind]
      | ok seed => simp [bind, Except.bind, pure, Except.pure, eq_comm]

/-- An optional text is refused only with a fault that the reader has for some text. -/
theorem isConfiguration_of_mapM {read : String → Except Fault UInt64} {text? : Option String}
    {fault : Fault} (hread : ∀ text cause, read text = .error cause → cause.isConfiguration = true)
    (h : text?.mapM read = .error fault) : fault.isConfiguration = true := by
  cases text? with
  | none => cases h
  | some text =>
    rw [Option.mapM_some] at h
    cases hvalue : read text with
    | ok value =>
      rw [hvalue] at h
      contradiction
    | error cause =>
      rw [hvalue] at h
      cases h
      exact hread text fault hvalue

/-- Options are refused only with a fault of the configuration. -/
theorem isConfiguration_of_ofOptions {options : WorkloadOptions} {file : Option Config}
    {fault : Fault} (h : Plan.ofOptions options file = .error fault) :
    fault.isConfiguration = true := by
  have hnumber : ∀ (named : String → ConfigFault) text cause,
      readNumber named text = .error cause → cause.isConfiguration = true := by
    intro named text cause hread
    rw [(readNumber_eq_error_iff.mp hread).1]
    rfl
  have hlength : ∀ text cause, readLength text = .error cause → cause.isConfiguration = true := by
    intro text cause hread
    rw [(readLength_eq_error_iff.mp hread).1]
    rfl
  unfold Plan.ofOptions at h
  cases hcount : options.count.mapM readCount with
  | error cause =>
    rw [hcount] at h
    cases h
    exact isConfiguration_of_mapM (hnumber _) hcount
  | ok count =>
    cases hlength' : options.length.mapM readLength with
    | error cause =>
      rw [hcount, hlength'] at h
      cases h
      exact isConfiguration_of_mapM hlength hlength'
    | ok length =>
      cases hseed : options.seed.mapM readSeed with
      | error cause =>
        rw [hcount, hlength', hseed] at h
        cases h
        exact isConfiguration_of_mapM (hnumber _) hseed
      | ok seed =>
        rw [hcount, hlength', hseed] at h
        contradiction

/-- The plan of options writes to where the options say. -/
theorem output_of_ofOptions {options : WorkloadOptions} {file : Option Config} {plan : Plan}
    (h : Plan.ofOptions options file = .ok plan) : plan.output = options.output := by
  obtain ⟨count, length, seed, -, -, -, rfl⟩ := ofOptions_eq_ok_iff.mp h
  rfl

/-! ## Numbers of a plan -/

namespace Plan

section

variable (plan : Plan)

/-- The number of operations that an option gives, or else the file. -/
def givenCount? : Option UInt64 := plan.count.or (plan.file.map Config.requestCount)

/-- The length that an option gives, or else the file, or else the default. -/
def finalLength : UInt64 := (plan.length.or (plan.file.map Config.length)).getD 10

/-- The seed that an option fixes, or else the file. -/
def finalSeed : Option UInt64 := plan.seed.or (plan.file.bind Config.seed)

/-- What the plan comes to with a number of operations. -/
def settle (count : UInt64) : Except Fault Config :=
  Config.validate ⟨count, plan.finalLength, plan.finalSeed⟩

/-- No number of operations is given exactly if neither an option nor a file is. -/
theorem givenCount?_eq_none_iff :
    plan.givenCount? = none ↔ plan.count = none ∧ plan.file = none := by
  unfold givenCount?
  rw [Option.or_eq_none_iff, Option.map_eq_none_iff]

/-- A plan asks first, if it needs to, and then comes to what it does with the number of operations.
If it does not need to, it asks nothing. -/
theorem resolve_eq {m : Type → Type} [Monad m] [LawfulMonad m] (ask : ExceptT Fault m UInt64) :
    plan.resolve ask =
      match plan.givenCount? with
      | some count => ExceptT.mk (pure (plan.settle count))
      | none => ask >>= fun count => ExceptT.mk (pure (plan.settle count)) := by
  obtain ⟨file, count, length, seed, output⟩ := plan
  unfold resolve settle givenCount? finalLength finalSeed
  cases file with
  | none =>
    cases count with
    | none =>
      simp only [bind_map_left]
      cases length <;> cases seed <;> rfl
    | some count =>
      simp only [pure_bind]
      cases length <;> cases seed <;> rfl
  | some file =>
    cases count <;> simp only [pure_bind] <;> cases length <;> rfl

/-- A plan comes to a configuration exactly if its length is not zero. -/
theorem settle_eq_ok_iff {count : UInt64} {config : Config} :
    plan.settle count = .ok config ↔
      plan.finalLength ≠ 0 ∧ config = ⟨count, plan.finalLength, plan.finalSeed⟩ :=
  Config.validate_eq_ok_iff

/-- A plan comes to a fault exactly if its length is zero. -/
theorem settle_eq_error_iff {count : UInt64} {fault : Fault} :
    plan.settle count = .error fault ↔
      plan.finalLength = 0 ∧ fault = .invalidConfiguration .zeroLength :=
  Config.validate_eq_error_iff

end

end Plan

end StoreTrial.Command
