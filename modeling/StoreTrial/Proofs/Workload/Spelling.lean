import StoreTrial.Proofs.Wire.OperationStream
import StoreTrial.Proofs.Workload.Progress
import StoreTrial.Trial

/-!
# The texts of a workload

All keys and values of a workload go back to tokens that were drawn for a fresh write: the history
holds nothing else, and every other operation takes its texts from the history. So whatever is true
of each token that a generator can draw is true of each text in its operations (`texts_made`). The
tokens of a keystream have the length that is asked for and are made of the characters of its
alphabet, which are letters and digits and so not blank (`token_spelling`, `unbroken_token`). So a
workload can always be written, and its text is read back as its operations (`encode_generate`),
line by line and without a warning (`generate_survives_wire`).
-/

namespace StoreTrial

open Text

namespace Keystream

/-! ## Tokens -/

/-- A search finds what a reading can find, or gives the result that it falls back on. -/
theorem firstOf_of_forall {α : Type} {P : α → Prop}
    {reading : Keystream → Option α × Keystream} {default : α}
    (hreading : ∀ stream result, (reading stream).1 = some result → P result)
    (hdefault : P default) (tries : Nat) (stream : Keystream) :
    P (firstOf reading default tries stream).1 := by
  induction tries generalizing stream with
  | zero => exact hdefault
  | succ tries ih =>
    unfold firstOf
    have hhere := hreading stream
    cases hread : reading stream with
    | mk found rest =>
      cases found with
      | none => exact ih rest
      | some result => exact hhere result (congrArg Prod.fst hread)

/-- A character of a token is one of the alphabet. -/
theorem character_mem (stream : Keystream) : (character stream).1 ∈ alphabet := by
  refine firstOf_of_forall (fun stream result hresult => ?_) (Vector.getElem_mem _) _ _
  exact Vector.mem_of_getElem? hresult

/-- A token has the length that is asked for, and its characters are of the alphabet. -/
theorem token_spelling (length : Nat) (stream : Keystream) :
    (token length stream).1.toList.length = length ∧
      ∀ c ∈ (token length stream).1.toList, c ∈ alphabet := by
  have htoken : ∀ length stream, (token length stream).1.toList =
      (StateT.run (m := Id) ((List.replicate length ()).mapM fun _ => character) stream).1 :=
    fun _ _ => String.toList_ofList
  simp only [htoken]
  -- Each character is drawn where the one before it left the stream.
  induction length generalizing stream with
  | zero => exact ⟨rfl, fun c hc => absurd hc List.not_mem_nil⟩
  | succ length ih =>
    obtain ⟨hlength, hmem⟩ := ih (character stream).2
    rw [List.replicate_succ, List.mapM_cons]
    refine ⟨congrArg (· + 1) hlength, ?_⟩
    rintro c (_ | ⟨_, hc⟩)
    · exact character_mem stream
    · exact hmem c hc

/-- The characters of the alphabet are letters and digits of ASCII. -/
theorem isAlphanum_of_mem_alphabet {c : Char} (h : c ∈ alphabet) : c.isAlphanum = true := by
  have hall : alphabet.toList.all Char.isAlphanum = true := by decide
  exact List.all_eq_true.mp hall c (Vector.mem_toList_iff.mpr h)

/-- No character of the alphabet is blank. -/
theorem not_isBlank_of_mem_alphabet {c : Char} (h : c ∈ alphabet) : isBlank c = false := by
  have hall : (alphabet.toList.all fun c => !isBlank c) = true := by decide
  have hc := List.all_eq_true.mp hall c (Vector.mem_toList_iff.mpr h)
  rwa [Bool.not_eq_true'] at hc

/-- A token that is not empty is unbroken. -/
theorem unbroken_token {length : Nat} (h : length ≠ 0) (stream : Keystream) :
    Unbroken (token length stream).1.toList := by
  obtain ⟨hlength, hmem⟩ := token_spelling length stream
  refine ⟨fun hnil => h ?_, fun c hc => not_isBlank_of_mem_alphabet (hmem c hc)⟩
  rw [← hlength, hnil, List.length_nil]

end Keystream

namespace Workload.Generator

/-! ## From the tokens to the operations -/

variable {σ : Type} [Draws σ] {P : String → Prop}

/-- What a generator can draw and what it keeps in its history has the property `P`. -/
structure Spells (P : String → Prop) (generator : Generator σ) : Prop where
  /-- Each token has the property. -/
  drawn : ∀ text, Drawn σ generator.length text → P text
  /-- The texts of each earlier write have the property. -/
  kept : ∀ entry ∈ generator.history, P entry.key ∧ P entry.value

/-- The texts of an operation that is made are drawn for it or taken from the history. -/
theorem Makes.texts_spelled {generator rest : Generator σ} {operation : Operation}
    (h : Makes generator operation rest) (hspells : Spells P generator) :
    ∀ part ∈ operation.texts, P part.2 := by
  cases h with
  | freshWrite key value source hkey hvalue =>
    simp only [Operation.texts, List.mem_cons, List.not_mem_nil, or_false, forall_eq_or_imp,
      forall_eq]
    exact ⟨hspells.drawn key hkey, hspells.drawn value hvalue⟩
  | reusedWrite entry source hseeded hentry =>
    simp only [Operation.texts, List.mem_cons, List.not_mem_nil, or_false, forall_eq_or_imp,
      forall_eq]
    exact hspells.kept entry hentry
  | read entry source hseeded hentry | delete entry source hseeded hentry =>
    simp only [Operation.texts, List.mem_cons, List.not_mem_nil, or_false, forall_eq]
    exact (hspells.kept entry hentry).1

/-- A call adds only such texts to the history, and draws tokens of the same length from then
on. -/
theorem Makes.spells {generator rest : Generator σ} {operation : Operation}
    (h : Makes generator operation rest) (hspells : Spells P generator) : Spells P rest := by
  have hpush : ∀ added : Entry, P added.key ∧ P added.value →
      ∀ entry ∈ generator.history.push added, P entry.key ∧ P entry.value := by
    intro added hadded entry hentry
    rcases Array.mem_push.mp hentry with hentry | rfl
    · exact hspells.kept entry hentry
    · exact hadded
  cases h with
  | freshWrite key value source hkey hvalue =>
    exact ⟨hspells.drawn, hpush _ ⟨hspells.drawn key hkey, hspells.drawn value hvalue⟩⟩
  | reusedWrite entry source hseeded hentry =>
    exact ⟨hspells.drawn, hpush _ (hspells.kept entry hentry)⟩
  | read | delete => exact ⟨hspells.drawn, hspells.kept⟩

/-- No number of calls changes what a generator draws and keeps. -/
theorem spells_after {generator : Generator σ} (h : Spells P generator) (count : Nat) :
    Spells P (generator.after count) :=
  after_induction (P := fun rest _ => Spells P rest) h
    (fun _ _ _ _ hspells hmakes => hmakes.spells hspells) count

/-- What is true of each token that a generator can draw is true of each text in its operations. -/
theorem texts_made {generator : Generator σ} (h : Spells P generator) {count : Nat}
    {operation : Operation} (hoperation : operation ∈ generator.made count) :
    ∀ part ∈ operation.texts, P part.2 := by
  obtain ⟨i, hi⟩ := List.getElem?_of_mem hoperation
  exact (makes_of_getElem?_made hi).2.texts_spelled (spells_after h i)

end Workload.Generator

namespace Workload

/-! ## Whole workloads -/

section

variable {config : Config} {entropy : UInt64} {workload : Workload}

/-- What is true of each token of a keystream is true of each text of a workload. -/
theorem texts_of_generate (P : String → Prop) (hlength : config.length ≠ 0)
    (h : (generate config entropy).run.value = .ok workload)
    (hdrawn : ∀ stream, P (Keystream.token config.length.toNat stream).1) :
    ∀ operation ∈ workload.operations, ∀ part ∈ operation.texts, P part.2 := by
  rw [(generate_eq_getD hlength entropy).2] at h
  obtain rfl := Except.ok.inj h
  -- The history is empty at the start, so only what can be drawn has to be looked at.
  have hspells : Generator.Spells P (Generator.ofSource config (config.seed.getD entropy)
      (Keystream.ofSeed (config.seed.getD entropy))) := by
    refine ⟨?_, fun entry hentry => absurd hentry (Array.not_mem_empty entry)⟩
    rintro _ ⟨source, rfl⟩
    exact hdrawn source
  exact fun operation hoperation => Generator.texts_made hspells hoperation

/-- All operations of a workload can be written. -/
theorem writable_of_generate (hlength : config.length ≠ 0)
    (h : (generate config entropy).run.value = .ok workload) :
    ∀ operation ∈ workload.operations, operation.Writable := by
  have hpositive : config.length.toNat ≠ 0 := fun hzero => hlength (UInt64.toNat_inj.mp hzero)
  exact texts_of_generate (fun text => Unbroken text.toList) hlength h fun stream =>
    Keystream.unbroken_token hpositive stream

end

/-- A workload can be written, with as many operations as its configuration asks for, and its text
is read back as its operations. -/
theorem encode_generate {config : Config} (hlength : config.length ≠ 0) (entropy : UInt64) :
    ∃ workload text, (generate config entropy).run.value = .ok workload ∧
      workload.operations.length = config.requestCount.toNat ∧
      workload.encode = .ok text ∧
      OperationStream.decode text = .ok ⟨workload.operations, 0⟩ := by
  obtain ⟨workload, hgenerate⟩ : ∃ workload, (generate config entropy).run.value = .ok workload :=
    ⟨_, (generate_eq_getD hlength entropy).2⟩
  have hcount := length_operations_of_generate hlength hgenerate
  have hwritable := writable_of_generate hlength hgenerate
  refine ⟨workload, _, hgenerate, hcount,
    OperationStream.encode_eq_ok_iff.mpr ⟨hwritable, rfl⟩, ?_⟩
  refine OperationStream.decode_render hwritable ?_
  rw [hcount]
  exact config.requestCount.toNat_lt

/-- The workload of every valid configuration, whatever its seed, can be sent and read back. Each
key and value in it is made of as many letters and digits as the configuration says. So it is never
refused when it is written; its text has one line more than there are operations; the text is read
back as exactly the operations; and no warning about lines that were left out is given. -/
theorem generate_survives_wire (config : Config) (hlength : config.length ≠ 0)
    (entropy : UInt64) :
    ∃ workload text, (generate config entropy).run.value = .ok workload ∧
      (∀ operation ∈ workload.operations, ∀ part ∈ operation.texts,
        part.2.length = config.length.toNat ∧ ∀ c ∈ part.2.toList, c.isAlphanum = true) ∧
      workload.encode = .ok text ∧
      (lines text.toList).length = config.requestCount.toNat + 1 ∧
      OperationStream.decode text = .ok ⟨workload.operations, 0⟩ ∧
      (Trial.operations text).run = ⟨.ok workload.operations, []⟩ := by
  obtain ⟨workload, text, hgenerate, hcount, hencode, hdecode⟩ := encode_generate hlength entropy
  refine ⟨workload, text, hgenerate, ?_, hencode, ?_, hdecode, ?_⟩
  · refine texts_of_generate (fun text => text.length = config.length.toNat ∧
      ∀ c ∈ text.toList, c.isAlphanum = true) hlength hgenerate fun stream => ?_
    obtain ⟨hsize, hmem⟩ := Keystream.token_spelling config.length.toNat stream
    refine ⟨hsize, fun c hc => ?_⟩
    exact Keystream.isAlphanum_of_mem_alphabet (hmem c hc)
  · -- The lines are the one that announces the operations and the renderings of these.
    obtain ⟨hwritable, rfl⟩ := OperationStream.encode_eq_ok_iff.mp hencode
    have hfits : workload.operations.length < UInt64.size := by
      rw [hcount]
      exact config.requestCount.toNat_lt
    obtain ⟨header, hlines, -⟩ := OperationStream.framed_render hwritable hfits
    rw [hlines, List.length_cons, List.length_map, hcount]
  · -- No line is left over, and so there is nothing to warn of.
    unfold Trial.operations
    rw [hdecode]
    rfl

/-- Ten operations with keys and values of one character, for which a seed is fixed, can be sent and
read back; and so can four for which none is. -/
theorem survives_wire_of_one_character :
    (⟨10, 1, some 7⟩ : Config).length ≠ 0 ∧ (⟨4, 1, none⟩ : Config).length ≠ 0 ∧
    (∃ workload text, (generate ⟨10, 1, some 7⟩ 0).run.value = .ok workload ∧
      workload.encode = .ok text ∧ (lines text.toList).length = 11 ∧
      OperationStream.decode text = .ok ⟨workload.operations, 0⟩) ∧
    ∃ workload text, (generate ⟨4, 1, none⟩ 9).run.value = .ok workload ∧
      workload.encode = .ok text ∧ (lines text.toList).length = 5 ∧
      OperationStream.decode text = .ok ⟨workload.operations, 0⟩ := by
  have hten : (⟨10, 1, some 7⟩ : Config).length ≠ 0 := by decide
  have hfour : (⟨4, 1, none⟩ : Config).length ≠ 0 := by decide
  obtain ⟨workload, text, hgenerate, -, hencode, hlines, hdecode, -⟩ :=
    generate_survives_wire ⟨10, 1, some 7⟩ hten 0
  obtain ⟨workload', text', hgenerate', -, hencode', hlines', hdecode', -⟩ :=
    generate_survives_wire ⟨4, 1, none⟩ hfour 9
  exact ⟨hten, hfour, ⟨workload, text, hgenerate, hencode, hlines, hdecode⟩,
    workload', text', hgenerate', hencode', hlines', hdecode'⟩

end Workload

end StoreTrial
