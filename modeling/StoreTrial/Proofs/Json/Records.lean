import StoreTrial.Proofs.Json.Printing
import StoreTrial.Proofs.Json.Reordering

/-!
# Records are read back from JSON

Every value of the types that stand in JSON is read back from its JSON value, whatever the order of
the members in it (`Recovers`): first the values that fields hold, and then the records, field by
field. With the round trip of JSON values this is a round trip of texts (`records_round_trip`).
Counts are read back if they fit in 64 bits, as the counts of a trial do.
-/

namespace StoreTrial

/-- The counts of a workload fit in 64 bits. -/
structure Workload.Stats.Fits (stats : Workload.Stats) : Prop where
  /-- The number of reads fits. -/
  reads : stats.reads < UInt64.size
  /-- The number of fresh writes fits. -/
  freshWrites : stats.freshWrites < UInt64.size
  /-- The number of reused writes fits. -/
  reusedWrites : stats.reusedWrites < UInt64.size
  /-- The number of deletions fits. -/
  deletes : stats.deletes < UInt64.size

/-- The counts and positions of a verdict fit in 64 bits. -/
structure Verdict.Fits (verdict : Verdict) : Prop where
  /-- The length of the expected list fits. -/
  expectedCount : verdict.expectedCount < UInt64.size
  /-- The length of the actual list fits. -/
  actualCount : verdict.actualCount < UInt64.size
  /-- The number of agreements fits. -/
  matched : verdict.matched < UInt64.size
  /-- The number of mismatches fits. -/
  mismatchCount : verdict.mismatchCount < UInt64.size
  /-- The position of each mismatch fits. -/
  mismatches : ∀ mismatch ∈ verdict.mismatches, mismatch.index < UInt64.size

namespace Json

/-- A value that is read from its JSON value in every order of the members of objects. -/
def Recovers {α : Type} [InJson α] (a : α) : Prop :=
  ∀ json, Reordered (toJson a) json → ofJson? json = some a

/-! ## What fields hold -/

/-- A string is read back. -/
theorem recovers_string (s : String) : Recovers s := by
  intro json hjson
  rw [Reordered.eq_string hjson]
  rfl

/-- A number of 64 bits is read back. -/
theorem recovers_uint64 (n : UInt64) : Recovers n := by
  intro json hjson
  rw [Reordered.eq_number hjson]
  simp only [ofJson?, dif_pos n.toNat_lt, UInt64.ofNatLT_toNat]

/-- A count is read back if it fits in 64 bits. -/
theorem recovers_nat {n : Nat} (h : n < UInt64.size) : Recovers n := by
  intro json hjson
  rw [Reordered.eq_number hjson]
  simp only [ofJson?, if_pos h]

/-- A list is read back if everything in it is. -/
theorem recovers_list {α : Type} [InJson α] {items : List α} (h : ∀ item ∈ items, Recovers item) :
    Recovers items := by
  intro json hjson
  obtain ⟨values, rfl, hvalues⟩ := Reordered.exists_items hjson
  show values.mapM ofJson? = some items
  clear hjson
  induction items generalizing values with
  | nil =>
    cases hvalues
    rfl
  | cons item items ih =>
    obtain _ | ⟨hvalue, hvalues⟩ := hvalues
    obtain ⟨hitem, hitems⟩ := List.forall_mem_cons.mp h
    rw [List.mapM_cons, hitem _ hvalue, ih hitems _ hvalues]
    rfl

/-! ## Constructors -/

/-- A kind is read back. -/
theorem recovers_kind (kind : Kind) : Recovers kind := by
  intro json hjson
  rw [Reordered.eq_string hjson]
  cases kind <;> rfl

/-- The only field of a reordered object with a key is the key. -/
theorem exists_key {key : String} {content : Json}
    (h : Reordered (object [("key", toJson key)]) content) :
    ∃ value, fields? ["key"] false content = some [some value] ∧ ofJson? value = some key := by
  obtain ⟨values, hvalues, hfields⟩ := h.exists_fields? [] (by simp)
  obtain _ | ⟨hkey, _ | _⟩ := hvalues
  exact ⟨_, hfields false, recovers_string key _ hkey⟩

/-- An operation is read back. -/
theorem recovers_operation (operation : Operation) : Recovers operation := by
  intro json hjson
  obtain ⟨content, hcontent, rfl⟩ := Reordered.exists_member hjson
  cases operation with
  | read key =>
    obtain ⟨value, hfields, hkey⟩ := exists_key hcontent
    show (fields? ["key"] false content).bind _ = _
    rw [hfields]
    show (do return Operation.read (← ofJson? value)) = some _
    rw [hkey]
    rfl
  | write key value =>
    obtain ⟨values, hvalues, hfields⟩ := hcontent.exists_fields? [] (by simp)
    obtain _ | ⟨hkey, _ | ⟨hvalue, _ | _⟩⟩ := hvalues
    have hfields : fields? ["key", "value"] false content = some [some _, some _] := hfields false
    show (fields? ["key", "value"] false content).bind _ = _
    rw [hfields]
    show (do return Operation.write (← ofJson? _) (← ofJson? _)) = some _
    rw [recovers_string key _ hkey, recovers_string value _ hvalue]
    rfl
  | delete key =>
    obtain ⟨value, hfields, hkey⟩ := exists_key hcontent
    show (fields? ["key"] false content).bind _ = _
    rw [hfields]
    show (do return Operation.delete (← ofJson? value)) = some _
    rw [hkey]
    rfl

/-- An outcome is read back. -/
theorem recovers_outcome (outcome : Outcome) : Recovers outcome := by
  intro json hjson
  cases outcome with
  | value text =>
    obtain ⟨content, hcontent, rfl⟩ := Reordered.exists_member hjson
    show (do return Outcome.value (← ofJson? content)) = some _
    rw [recovers_string text _ hcontent]
    rfl
  | success =>
    rw [Reordered.eq_string hjson]
    rfl
  | notFound =>
    rw [Reordered.eq_string hjson]
    rfl

/-! ## Structures -/

/-- The counts of a workload are read back if they fit. -/
theorem recovers_stats {stats : Workload.Stats} (h : stats.Fits) : Recovers stats := by
  intro json hjson
  obtain ⟨values, hvalues, hfields⟩ := hjson.exists_fields? [] (by simp)
  obtain _ | ⟨hreads, _ | ⟨hfresh, _ | ⟨hreused, _ | ⟨hdeletes, _ | _⟩⟩⟩⟩ := hvalues
  have hfields : fields? ["reads", "fresh_writes", "reused_writes", "deletes"] false json =
      some [some _, some _, some _, some _] := hfields false
  show (fields? ["reads", "fresh_writes", "reused_writes", "deletes"] false json).bind _ = _
  rw [hfields]
  show (do return Workload.Stats.mk (← ofJson? _) (← ofJson? _) (← ofJson? _) (← ofJson? _)) =
    some stats
  rw [recovers_nat h.reads _ hreads, recovers_nat h.freshWrites _ hfresh,
    recovers_nat h.reusedWrites _ hreused, recovers_nat h.deletes _ hdeletes]
  rfl

/-- The fields of a configuration are read back: the seed is the last of them, or is absent. -/
theorem exists_config_fields {config : Workload.Config} {json : Json}
    (h : Reordered (toJson config) json) :
    ∃ count length seed,
      fields? ["request_count", "key_value_length", "seed"] true json =
        some [some count, some length, seed] ∧
      ofJson? count = some config.requestCount ∧ ofJson? length = some config.length ∧
      seed? seed = some config.seed := by
  obtain ⟨requestCount, length, seed⟩ := config
  -- Without a seed there are two members, and the third field is absent.
  cases seed with
  | none =>
    obtain ⟨values, hvalues, hfields⟩ := h.exists_fields? ["seed"] (by simp)
    obtain _ | ⟨hcount, _ | ⟨hlength, _ | _⟩⟩ := hvalues
    exact ⟨_, _, none, hfields true, recovers_uint64 requestCount _ hcount,
      recovers_uint64 length _ hlength, rfl⟩
  | some seed =>
    obtain ⟨values, hvalues, hfields⟩ := h.exists_fields? [] (by simp)
    obtain _ | ⟨hcount, _ | ⟨hlength, _ | ⟨hseed, _ | _⟩⟩⟩ := hvalues
    refine ⟨_, _, some _, hfields true, recovers_uint64 requestCount _ hcount,
      recovers_uint64 length _ hlength, ?_⟩
    have hread := recovers_uint64 seed _ hseed
    rw [Reordered.eq_number hseed] at hread ⊢
    show (ofJson? (number seed.toNat)).map some = some (some seed)
    rw [hread, Option.map_some]

/-- A configuration is read back, also without a seed. -/
theorem recovers_config (config : Workload.Config) : Recovers config := by
  intro json hjson
  obtain ⟨count, length, seed, hfields, hcount, hlength, hseed⟩ := exists_config_fields hjson
  show (fields? ["request_count", "key_value_length", "seed"] true json).bind _ = _
  rw [hfields]
  show (do
    let length ← ofJson? length
    return Workload.Config.mk (← ofJson? count) length (← seed? seed)) = some config
  rw [hcount, hlength, hseed]
  rfl

/-- A mismatch is read back if its position fits. -/
theorem recovers_mismatch {mismatch : Mismatch} (h : mismatch.index < UInt64.size) :
    Recovers mismatch := by
  intro json hjson
  obtain ⟨values, hvalues, hfields⟩ := hjson.exists_fields? [] (by simp)
  obtain _ | ⟨hindex, _ | ⟨hexpected, _ | ⟨hactual, _ | _⟩⟩⟩ := hvalues
  have hfields : fields? ["index", "expected", "actual"] false json =
      some [some _, some _, some _] := hfields false
  show (fields? ["index", "expected", "actual"] false json).bind _ = _
  rw [hfields]
  show (do return Mismatch.mk (← ofJson? _) (← ofJson? _) (← ofJson? _)) = some mismatch
  rw [recovers_nat h _ hindex, recovers_outcome mismatch.expected _ hexpected,
    recovers_outcome mismatch.actual _ hactual]
  rfl

/-- A verdict is read back if its counts fit, whatever mismatches it keeps. -/
theorem recovers_verdict {verdict : Verdict} (h : verdict.Fits) : Recovers verdict := by
  intro json hjson
  obtain ⟨values, hvalues, hfields⟩ := hjson.exists_fields? [] (by simp)
  obtain _ | ⟨hexpected, _ | ⟨hactual, _ | ⟨hmatched, _ | ⟨hcount, _ | ⟨hlist, _ | _⟩⟩⟩⟩⟩ := hvalues
  have hfields : fields?
      ["expected_count", "actual_count", "matched", "mismatch_count", "mismatches"] false json =
      some [some _, some _, some _, some _, some _] := hfields false
  have hmismatches : Recovers verdict.mismatches :=
    recovers_list fun mismatch hmem => recovers_mismatch (h.mismatches mismatch hmem)
  show (fields? ["expected_count", "actual_count", "matched", "mismatch_count", "mismatches"]
    false json).bind _ = _
  rw [hfields]
  show (do
    return Verdict.mk (← ofJson? _) (← ofJson? _) (← ofJson? _) (← ofJson? _)
      (← ofJson? _)) = some verdict
  rw [recovers_nat h.expectedCount _ hexpected, recovers_nat h.actualCount _ hactual,
    recovers_nat h.matched _ hmatched, recovers_nat h.mismatchCount _ hcount,
    hmismatches _ hlist]
  rfl

/-! ## Texts -/

/-- A value whose text is read back, whatever the order of the members in it. -/
structure RoundTrips {α : Type} [InJson α] (a : α) : Prop where
  /-- The text is read back. -/
  read?_write : read? (write a) = some a
  /-- The text is read back with the members of the objects in it in another order. -/
  read?_reordered : ∀ json, Reordered (toJson a) json → read? json.compact = some a
  /-- What is read from a text with the members in another order is written in their one order. -/
  write_reordered : ∀ json, Reordered (toJson a) json →
    (read? json.compact : Option α).map write = some (write a)

/-- A value that is read from its JSON value is read from its text. -/
theorem Recovers.roundTrips {α : Type} [InJson α] {a : α} (h : Recovers a) : RoundTrips a := by
  have hread : ∀ json, Reordered (toJson a) json → read? json.compact = some a := by
    intro json hjson
    rw [read?, parse?_compact]
    exact h json hjson
  refine ⟨hread _ (.refl _), hread, fun json hjson => ?_⟩
  rw [hread json hjson]
  rfl

/-- The text of a configuration has a member for the seed only if there is a seed. -/
theorem write_config (config : Workload.Config) :
    write config =
      "\x7b\"request_count\":" ++ toString config.requestCount ++
        ",\"key_value_length\":" ++ toString config.length ++
        (config.seed.elim "" fun seed => ",\"seed\":" ++ toString seed) ++ "\x7d" := by
  have hdigits : ∀ n : UInt64, (toString n).toList = Nat.toDigits 10 n.toNat :=
    fun n => Nat.toList_repr
  obtain ⟨requestCount, length, seed⟩ := config
  apply String.toList_injective
  cases seed with
  | none =>
    simp [write, compact, Layout.compact, toJson, render, renderMember, renderMembers, quote,
      escape, hdigits]
  | some seed =>
    simp [write, compact, Layout.compact, toJson, render, renderMember, renderMembers, quote,
      escape, hdigits]

/-- What is written in JSON is read back, also with the members of the objects in it in another
order, and is then written as it was. This holds of every kind, operation and outcome, of counts and
verdicts whose numbers fit in 64 bits, and of every configuration, whose text leaves out a seed that
it does not have. -/
theorem records_round_trip :
    (∀ kind : Kind, RoundTrips kind) ∧
    (∀ operation : Operation, RoundTrips operation) ∧
    (∀ outcome : Outcome, RoundTrips outcome) ∧
    (∀ stats : Workload.Stats, stats.Fits → RoundTrips stats) ∧
    (∀ config : Workload.Config, RoundTrips config ∧
      write config =
        "\x7b\"request_count\":" ++ toString config.requestCount ++
          ",\"key_value_length\":" ++ toString config.length ++
          (config.seed.elim "" fun seed => ",\"seed\":" ++ toString seed) ++ "\x7d") ∧
    (∀ verdict : Verdict, verdict.Fits → RoundTrips verdict) :=
  ⟨fun kind => (recovers_kind kind).roundTrips,
    fun operation => (recovers_operation operation).roundTrips,
    fun outcome => (recovers_outcome outcome).roundTrips,
    fun _ hfits => (recovers_stats hfits).roundTrips,
    fun config => ⟨(recovers_config config).roundTrips, write_config config⟩,
    fun _ hfits => (recovers_verdict hfits).roundTrips⟩

/-- The largest count and a text full of characters that are escaped are read back. -/
theorem roundTrips_of_largest_count :
    (⟨UInt64.size - 1, 1, 0, 1, [⟨0, .value "\"\\\n\x01é", .notFound⟩]⟩ : Verdict).Fits ∧
      RoundTrips
        (⟨UInt64.size - 1, 1, 0, 1, [⟨0, .value "\"\\\n\x01é", .notFound⟩]⟩ : Verdict) := by
  have hfits :
      (⟨UInt64.size - 1, 1, 0, 1, [⟨0, .value "\"\\\n\x01é", .notFound⟩]⟩ : Verdict).Fits :=
    ⟨by decide, by decide, by decide, by decide, by simp⟩
  exact ⟨hfits, records_round_trip.2.2.2.2.2 _ hfits⟩

end Json

end StoreTrial
