import StoreTrial.Fault

/-!
# Configuration of a workload

A workload is determined by the number of its operations, the length of its keys and values, and a
seed. The numbers are those that fit in 64 bits.
-/

namespace StoreTrial.Workload

/-- What determines a workload. -/
structure Config where
  /-- The number of operations. -/
  requestCount : UInt64
  /-- The length of every key and value. -/
  length : UInt64
  /-- The seed, if it is fixed. -/
  seed : Option UInt64
deriving DecidableEq

namespace Config

/-- The length of keys and values where none is given. -/
def defaultLength : UInt64 := 10

/-- The usual name of a configuration file. -/
def fileName : String := "kvharness.toml"

/-- The configuration of `requestCount` operations, with the usual length and no fixed seed. -/
def ofCount (requestCount : UInt64) : Config := ⟨requestCount, defaultLength, none⟩

/-- The configuration of an empty workload. -/
def default : Config := ofCount 0

/-- The configuration itself if a workload can have it: its length is not zero. -/
def validate (config : Config) : Except Fault Config :=
  if config.length = 0 then .error (.invalidConfiguration .zeroLength) else .ok config

/-- What is valid is the configuration itself, and exactly if its length is not zero. -/
theorem validate_eq_ok_iff {config config' : Config} :
    config.validate = .ok config' ↔ config.length ≠ 0 ∧ config' = config := by
  unfold validate
  split
  · rename_i hlength
    exact iff_of_false nofun fun h => h.1 hlength
  · rename_i hlength
    rw [Except.ok.injEq, eq_comm]
    exact (and_iff_right hlength).symm

/-- What is invalid has the length zero, and no other fault. -/
theorem validate_eq_error_iff {config : Config} {fault : Fault} :
    config.validate = .error fault ↔
      config.length = 0 ∧ fault = .invalidConfiguration .zeroLength := by
  unfold validate
  split
  · rename_i hlength
    rw [Except.error.injEq, eq_comm]
    exact (and_iff_right hlength).symm
  · rename_i hlength
    exact iff_of_false nofun fun h => hlength h.1

/-- A configuration file with comments, to start from. -/
def sampleFile : String :=
  "# kvharness workload configuration\n" ++
  "#\n" ++
  "# Number of operations to generate (required).\n" ++
  "request_count = 1000\n" ++
  "\n" ++
  "# Length of generated keys and values (default: 10).\n" ++
  "key_value_length = 10\n" ++
  "\n" ++
  "# Fixed seed for reproducible workloads. Omit to draw a random seed;\n" ++
  "# the chosen seed is logged at info level.\n" ++
  "# seed = 42\n"

end Config

end StoreTrial.Workload
