import StoreTrial.Proofs.Command.Assignments
import StoreTrial.Proofs.Command.Effects
import StoreTrial.Proofs.Workload.ConfigFile
import StoreTrial.Proofs.Workload.Progress

/-!
# Configurations of options and of files

The numbers of a configuration can be given by options or in a file, and what is refused of either
is a fault of the configuration (`isConfiguration_of_does_gather`). Options take every number of 64
bits (`configures_write`), while a file takes those below `2 ^ 63`. Options that name nothing but a
file come to what the file holds (`does_configure_file_iff`), as they do with the file to start from
(`configures_sampleFile`). So the two ways agree on three numbers that are all below that bound, and
on others the file is refused (`file_agrees_iff_small`). A generator can be given, and reports, any
seed of 64 bits, so there are reported seeds that only an option can give back
(`reported_seed_refused`).
-/

namespace StoreTrial.Command

open Text Workload

/-! ## Valid configurations -/

/-- What is read from a configuration file is valid. -/
theorem length_ne_zero_of_ofFile {path : String} {content : Except AccessFault String}
    {config : Config} (h : Config.ofFile path content = .ok config) : config.length ≠ 0 := by
  cases content with
  | error cause => contradiction
  | ok text =>
    have htext : Config.ofText text = .ok config := by
      unfold Config.ofFile at h
      simp only at h
      split at h
      · contradiction
      · exact h
    unfold Config.ofText at htext
    split at htext
    · obtain ⟨hlength, rfl⟩ := Config.validate_eq_ok_iff.mp htext
      exact hlength
    · contradiction

/-- On any system, what keeps a plan from being gathered is a fault of the configuration. -/
theorem isConfiguration_of_does_gather {σ : Type} [Host (StateM σ)] {options : WorkloadOptions}
    {before after : σ} {fault : Fault} (h : Does (gather options) before (.error fault) after) :
    fault.isConfiguration = true := by
  have hplan : ∀ {file between}, Does (ExceptT.mk (pure (Plan.ofOptions options file))) between
      (.error fault) after → fault.isConfiguration = true := fun hknown =>
    isConfiguration_of_ofOptions (does_known_iff.mp hknown).1.symm
  unfold gather at h
  split at h
  · rename_i path _
    rcases does_bind_error_iff.mp h with hread | ⟨content, between, -, hrest⟩
    · exact absurd (does_lift_iff.mp hread).1 nofun
    · rcases does_bind_error_iff.mp hrest with hfile | ⟨file, between', -, hknown⟩
      · have hrefused := (does_map_known_iff.mp hfile).1
        cases hcontent : Config.ofFile path content with
        | ok config =>
          rw [hcontent] at hrefused
          contradiction
        | error cause =>
          rw [hcontent] at hrefused
          cases hrefused
          exact Config.isConfiguration_of_ofFile hcontent
      · exact hplan hknown
  · rcases does_bind_error_iff.mp h with hnone | ⟨file, between, -, hknown⟩
    · exact absurd (does_pure_iff.mp hnone).1 nofun
    · exact hplan hknown

/-! ## Options and files -/

/-- On any system, options with the digits of three numbers come to these numbers. -/
theorem configures_write {σ : Type} [Host (StateM σ)] {count length seed : UInt64}
    (hlength : length ≠ 0) (output : Option String) (before : σ) :
    Configures ⟨some (Decimal.write count.toNat), some (Decimal.write length.toNat),
      some (Decimal.write seed.toNat), none, output⟩ before ⟨count, length, some seed⟩ before := by
  have hplan : Plan.ofOptions ⟨some (Decimal.write count.toNat), some (Decimal.write length.toNat),
      some (Decimal.write seed.toNat), none, output⟩ none =
      .ok ⟨none, some count, some length, some seed, output⟩ := by
    have hreadLength : readLength (Decimal.write length.toNat) = .ok length :=
      readLength_eq_ok_iff.mpr ⟨Decimal.spells_write length.toNat, hlength⟩
    simp only [Plan.ofOptions, Option.mapM_some, readCount, readSeed, readNumber_write, hreadLength]
    rfl
  have hvalid : Config.validate ⟨count, length, some seed⟩ = .ok ⟨count, length, some seed⟩ :=
    Config.validate_eq_ok_iff.mpr ⟨hlength, rfl⟩
  -- Both the gathering and the resolving of this plan start with a value that is there already.
  refine does_bind_ok_iff.mpr ⟨⟨none, some count, some length, some seed, output⟩, before, ?_, ?_⟩
  · exact (does_bind_of_ok (does_pure_iff.mpr ⟨rfl, rfl⟩)).mpr
      (does_known_iff.mpr ⟨hplan.symm, rfl⟩)
  · exact (does_bind_of_ok (does_pure_iff.mpr ⟨rfl, rfl⟩)).mpr
      (does_known_iff.mpr ⟨hvalid.symm, rfl⟩)

/-- In a world it makes no difference to a configuration that the question is announced. -/
theorem configures_iff {options : WorkloadOptions} {world ready : World} {config : Config} :
    Configures options world config ready ↔
      Does (gather options >>= fun plan => plan.resolve askCount) world (.ok config) ready := by
  unfold Configures
  simp only [does_bind_ok_iff, does_configure_iff]

section

variable {path : String} {output : Option String} {world after : World}

/-- A plan that holds what a file gives is gathered from options that name the file. -/
theorem does_gather_file (path : String) (output : Option String) (world : World) :
    Does (gather ⟨none, none, none, some path, output⟩) world
      ((Config.ofFile path (world.text path)).map fun config =>
        ⟨some config, none, none, none, output⟩) world := by
  rw [does_gather_iff, Option.mapM_some]
  cases Config.ofFile path (world.text path) <;> exact ⟨rfl, rfl⟩

/-- Options that name a configuration file and no number come to what the file holds. -/
theorem does_configure_file_iff {result : Except Fault Config} :
    Does (gather ⟨none, none, none, some path, output⟩ >>= fun plan => plan.resolve askCount)
        world result after ↔
      result = Config.ofFile path (world.text path) ∧ after = world := by
  have hgather := does_gather_file path output world
  cases hfile : Config.ofFile path (world.text path) with
  | error fault =>
    rw [hfile] at hgather
    exact does_bind_of_error hgather
  | ok config =>
    rw [hfile] at hgather
    -- There is nothing that wins over the file, and what it gives is valid already.
    have hvalid : config.validate = .ok config :=
      Config.validate_eq_ok_iff.mpr ⟨length_ne_zero_of_ofFile hfile, rfl⟩
    have hresolve : Plan.resolve ⟨some config, none, none, none, output⟩ askCount =
        (ExceptT.mk (pure config.validate) : Action (StateM World) Config) := rfl
    rw [does_bind_of_ok hgather, hresolve, does_known_iff, hvalid]

/-- Options that name the file to start from, under its usual name, come to a thousand operations of
the usual length with a seed that is left open. -/
theorem configures_sampleFile (output : Option String) (world : World) :
    let world := world.put Config.fileName Config.sampleFile
    Configures ⟨none, none, none, some Config.fileName, output⟩ world (Config.ofCount 1000)
      world := by
  intro world
  have hleads : Path.Leads Config.fileName Config.fileName :=
    Path.leads_name (by constructor <;> decide)
  have hfile : Config.ofFile Config.fileName (world.text Config.fileName) =
      .ok (Config.ofCount 1000) := by
    rw [World.text_put_self hleads]
    exact Config.ofFile_of_ofText Config.ofText_sampleFile
  exact configures_iff.mpr (does_configure_file_iff.mpr ⟨hfile.symm, rfl⟩)

/-! ## Files of three numbers -/

variable {count length seed : UInt64}

/-- Options that name a file of three numbers come to these numbers if they are small enough, and
are refused with the file otherwise. -/
theorem does_configure_numbersFile_iff (hlength : length ≠ 0)
    (hfile : world.text path = .ok (Config.numbersFile count length seed))
    {result : Except Fault Config} :
    Does (gather ⟨none, none, none, some path, output⟩ >>= fun plan => plan.resolve askCount)
        world result after ↔
      result = (if Config.Small count length seed then .ok ⟨count, length, some seed⟩
        else .error (.invalidConfiguration (.inFile path .unparsable))) ∧ after = world := by
  have hread : Config.ofFile path (world.text path) =
      if Config.Small count length seed then .ok ⟨count, length, some seed⟩
      else .error (.invalidConfiguration (.inFile path .unparsable)) := by
    unfold Config.ofFile
    simp only [hfile, Config.ofText_numbersFile count length seed hlength]
    by_cases hsmall : Config.Small count length seed
    · rw [if_pos hsmall, if_pos hsmall]
    · rw [if_neg hsmall, if_neg hsmall]
  rw [does_configure_file_iff, hread]

/-- Three numbers of 64 bits, of which the length is not zero, are always taken from options. A
configuration file with their digits is read as the same configuration, and options that name only
this file come to it, if all three are below `2 ^ 63`; otherwise the file is refused. -/
theorem file_agrees_iff_small (output : Option String) (hlength : length ≠ 0)
    (hfile : world.text path = .ok (Config.numbersFile count length seed)) :
    Configures ⟨some (Decimal.write count.toNat), some (Decimal.write length.toNat),
      some (Decimal.write seed.toNat), none, output⟩ world ⟨count, length, some seed⟩ world ∧
    Config.ofText (Config.numbersFile count length seed) =
      (if Config.Small count length seed then .ok ⟨count, length, some seed⟩
      else .error (.invalidConfiguration .unparsable)) ∧
    ∀ result after,
      Does (gather ⟨none, none, none, some path, output⟩ >>= fun plan => plan.resolve askCount)
          world result after ↔
        result = (if Config.Small count length seed then .ok ⟨count, length, some seed⟩
          else .error (.invalidConfiguration (.inFile path .unparsable))) ∧ after = world := by
  refine ⟨configures_write hlength output world, Config.ofText_numbersFile _ _ _ hlength, ?_⟩
  exact fun result after => does_configure_numbersFile_iff hlength hfile

/-- A file with the seed 42 agrees with options, and one with the seed `2 ^ 63` is refused. -/
theorem file_agrees_of_small_seed :
    let small := World.empty.put "w.toml" (Config.numbersFile 5 10 42)
    let large := World.empty.put "w.toml" (Config.numbersFile 5 10 0x8000000000000000)
    (10 : UInt64) ≠ 0 ∧
    small.text "w.toml" = .ok (Config.numbersFile 5 10 42) ∧
    large.text "w.toml" = .ok (Config.numbersFile 5 10 0x8000000000000000) ∧
    Configures ⟨none, none, none, some "w.toml", none⟩ small ⟨5, 10, some 42⟩ small ∧
    Does (gather ⟨none, none, none, some "w.toml", none⟩ >>= fun plan => plan.resolve askCount)
      large (.error (.invalidConfiguration (.inFile "w.toml" .unparsable))) large := by
  intro small large
  have hlength : (10 : UInt64) ≠ 0 := by decide
  have hleads : Path.Leads "w.toml" "w.toml" := Path.leads_name (by constructor <;> decide)
  have hsmall : small.text "w.toml" = .ok (Config.numbersFile 5 10 42) :=
    World.text_put_self hleads _ _
  have hlarge : large.text "w.toml" = .ok (Config.numbersFile 5 10 0x8000000000000000) :=
    World.text_put_self hleads _ _
  refine ⟨hlength, hsmall, hlarge, ?_, ?_⟩
  · exact configures_iff.mpr (((file_agrees_iff_small none hlength hsmall).2.2 _ _).mpr
      ⟨(if_pos (by decide)).symm, rfl⟩)
  · exact ((file_agrees_iff_small none hlength hlarge).2.2 _ _).mpr
      ⟨(if_neg (by decide)).symm, rfl⟩

/-- The seed `2 ^ 63` can be drawn and reported and then given by an option, but no configuration
file can give it back: a file with its digits is refused. -/
theorem reported_seed_refused :
    let seed : UInt64 := 0x8000000000000000
    let file := "request_count = 5\nkey_value_length = 10\nseed = 9223372036854775808\n"
    let world := World.empty.put "w.toml" file
    (∃ workload, (generate ⟨5, 10, none⟩ seed).run.value = .ok workload ∧ workload.seed = seed) ∧
    Configures ⟨some "5", some "10", some "9223372036854775808", none, none⟩ world
      ⟨5, 10, some seed⟩ world ∧
    Config.ofText file = .error (.invalidConfiguration .unparsable) ∧
    ¬∃ config ready, Configures ⟨none, none, none, some "w.toml", none⟩ world config ready := by
  intro seed file world
  have hlength : (10 : UInt64) ≠ 0 := by decide
  have hfile : file = Config.numbersFile 5 10 seed := by decide
  have hlarge : ¬Config.Small 5 10 seed := by decide
  have hleads : Path.Leads "w.toml" "w.toml" := Path.leads_name (by constructor <;> decide)
  have hread : world.text "w.toml" = .ok (Config.numbersFile 5 10 seed) := by
    rw [← hfile]
    exact World.text_put_self hleads file .empty
  have hdigits : Decimal.write (5 : UInt64).toNat = "5" ∧ Decimal.write (10 : UInt64).toNat = "10" ∧
      Decimal.write seed.toNat = "9223372036854775808" := by decide
  refine ⟨⟨_, (generate_eq_getD hlength seed).2, rfl⟩, ?_, ?_, ?_⟩
  · rw [← hdigits.1, ← hdigits.2.1, ← hdigits.2.2]
    exact configures_write hlength none world
  · rw [hfile, Config.ofText_numbersFile _ _ _ hlength, if_neg hlarge]
  · rintro ⟨config, ready, hconfigures⟩
    have hdoes := configures_iff.mp hconfigures
    have hresult := ((does_configure_numbersFile_iff hlength hread).mp hdoes).1
    rw [if_neg hlarge] at hresult
    contradiction

end

end StoreTrial.Command
