import StoreTrial.Proofs.Toml.Document
import StoreTrial.Text.Decimal
import StoreTrial.Workload.ConfigFile

/-!
# Configuration files of three numbers

A configuration file can give the number of operations, the length and the seed of a workload in
their digits (`numbersFile`). All three are numbers of 64 bits, but a file holds integers of 64
signed bits. So a file of three numbers is read as these numbers if all of them are below `2 ^ 63`,
and refused as a whole if one of them is not (`ofText_numbersFile`).

The defaults make a valid configuration (`validate_ofCount`), and the file to start from is one that
is read, with the numbers in it (`ofText_sampleFile`). Whatever else a file holds, what is wrong
with it is a fault of the configuration (`isConfiguration_of_ofFile`).
-/

namespace StoreTrial.Workload.Config

open Text

/-- The configuration file with the digits of three numbers. -/
def numbersFile (count length seed : UInt64) : String :=
  "request_count = " ++ Decimal.write count.toNat ++ "\n" ++
  "key_value_length = " ++ Decimal.write length.toNat ++ "\n" ++
  "seed = " ++ Decimal.write seed.toNat ++ "\n"

/-- The three numbers are small enough to be integers of a file. -/
def Small (count length seed : UInt64) : Prop :=
  count.toNat < Toml.limit ∧ length.toNat < Toml.limit ∧ seed.toNat < Toml.limit

instance (count length seed : UInt64) : Decidable (Small count length seed) :=
  inferInstanceAs (Decidable (count.toNat < Toml.limit ∧ length.toNat < Toml.limit ∧
    seed.toNat < Toml.limit))

section

variable (count length seed : UInt64)

/-- A file of three numbers is the document of these numbers. -/
theorem numbersFile_eq_document :
    numbersFile count length seed = Toml.document [("request_count", count.toNat),
      ("key_value_length", length.toNat), ("seed", seed.toNat)] := by
  have hcount : "request_count = ".toList = "request_count".toList ++ [' ', '=', ' '] := by decide
  have hlength : "key_value_length = ".toList = "key_value_length".toList ++ [' ', '=', ' '] := by
    decide
  have hseed : "seed = ".toList = "seed".toList ++ [' ', '=', ' '] := by decide
  have hlineFeed : "\n".toList = ['\n'] := by decide
  refine String.toList_inj.mp ?_
  unfold numbersFile Toml.document Toml.numberLine
  simp only [String.toList_append, String.toList_ofList, Decimal.write, Nat.toList_repr, hcount,
    hlength, hseed, hlineFeed, joinLines, List.map_cons, List.map_nil, List.flatMap_cons,
    List.flatMap_nil, List.append_assoc, List.cons_append, List.nil_append, List.append_nil]

/-- A number of 64 bits is found again among the integers. -/
theorem word?_toNat (n : UInt64) : word? (n.toNat : Int) = some n := by
  have hlt : n.toNat < UInt64.size := n.toNat_lt
  show (if h : n.toNat < UInt64.size then some (UInt64.ofNatLT n.toNat h) else none) = some n
  rw [dif_pos hlt, UInt64.ofNatLT_toNat]

/-- A text is read as the configuration that its assignments make, if that is valid. -/
theorem ofText_of_parse? {text : String} {assignments : List (String × Int)} {config : Config}
    (hparse : Toml.parse? text = some assignments)
    (hassigned : ofAssignments? assignments = some config) : ofText text = config.validate := by
  unfold ofText
  rw [hparse, Option.bind_eq_bind, Option.bind_some, hassigned]

/-- A file of three numbers is read as these numbers if they are small enough, and refused
otherwise. -/
theorem ofText_numbersFile (hlength : length ≠ 0) :
    ofText (numbersFile count length seed) =
      if Small count length seed then .ok ⟨count, length, some seed⟩
      else .error (.invalidConfiguration .unparsable) := by
  have hnames : ∀ name ∈ ["request_count", "key_value_length", "seed"], Toml.Bare name.toList := by
    decide
  have hbare : ∀ assignment ∈ [("request_count", count.toNat),
      ("key_value_length", length.toNat), ("seed", seed.toNat)], Toml.Bare assignment.1.toList :=
    fun assignment hmem => hnames assignment.1 (List.mem_map_of_mem hmem)
  have hnodup : ["request_count", "key_value_length", "seed"].Nodup := by decide
  have hassigned : ofAssignments? [("request_count", (count.toNat : Int)),
      ("key_value_length", (length.toNat : Int)), ("seed", (seed.toNat : Int))] =
      some ⟨count, length, some seed⟩ := by
    simp [ofAssignments?, fileNames, List.lookup_cons, word?_toNat]
  have hparse := Toml.parse?_document hbare hnodup
  have hsmall : (∀ assignment ∈ [("request_count", count.toNat), ("key_value_length", length.toNat),
      ("seed", seed.toNat)], assignment.2 < Toml.limit) ↔ Small count length seed := by
    simp only [List.forall_mem_cons, List.not_mem_nil, false_implies, implies_true, and_true, Small]
  simp only [hsmall] at hparse
  rw [← numbersFile_eq_document] at hparse
  by_cases hsmall : Small count length seed
  · rw [if_pos hsmall] at hparse ⊢
    exact (ofText_of_parse? hparse hassigned).trans (validate_eq_ok_iff.mpr ⟨hlength, rfl⟩)
  · rw [if_neg hsmall] at hparse ⊢
    unfold ofText
    rw [hparse]
    rfl

end

/-! ## Defaults and other files -/

/-- A configuration with the defaults is valid, whatever the number of operations. -/
theorem validate_ofCount (requestCount : UInt64) :
    (ofCount requestCount).validate = .ok (ofCount requestCount) := by
  have hlength : (ofCount requestCount).length ≠ 0 := (by decide : defaultLength ≠ 0)
  exact validate_eq_ok_iff.mpr ⟨hlength, rfl⟩

/-- The configuration of an empty workload is valid. -/
theorem validate_default : default.validate = .ok default := validate_ofCount 0

/-- The file to start from assigns two numbers. Its line with a seed is a comment. -/
theorem parse?_sampleFile :
    Toml.parse? sampleFile = some [("request_count", 1000), ("key_value_length", 10)] := by
  unfold Toml.parse? sampleFile
  -- The characters of each line are put in its place first: decoding the whole text takes long.
  simp only [String.toList_append]
  repeat rw [String.toList_ofList]
  decide +kernel

/-- The file to start from asks for a thousand operations with the usual length, and leaves the seed
open. -/
theorem ofText_sampleFile : ofText sampleFile = .ok (ofCount 1000) := by
  have hassigned : ofAssignments? [("request_count", 1000), ("key_value_length", 10)] =
      some (ofCount 1000) := by
    rfl
  exact (ofText_of_parse? parse?_sampleFile hassigned).trans (validate_ofCount 1000)

/-- A file whose text is read as a configuration is read as that. -/
theorem ofFile_of_ofText {path text : String} {config : Config} (h : ofText text = .ok config) :
    ofFile path (.ok text) = .ok config := by
  unfold ofFile
  simp only [h]

/-- A text is refused as a configuration only with a fault of the configuration. -/
theorem isConfiguration_of_ofText {text : String} {fault : Fault}
    (h : ofText text = .error fault) : fault.isConfiguration = true := by
  unfold ofText at h
  split at h
  · obtain ⟨-, rfl⟩ := validate_eq_error_iff.mp h
    rfl
  · cases h
    rfl

/-- A file that cannot be read or is refused is a fault of the configuration. -/
theorem isConfiguration_of_ofFile {path : String} {content : Except AccessFault String}
    {fault : Fault} (h : ofFile path content = .error fault) : fault.isConfiguration = true := by
  unfold ofFile at h
  split at h
  · cases h
    rfl
  · split at h
    · cases h
      rfl
    · exact isConfiguration_of_ofText h

end StoreTrial.Workload.Config
