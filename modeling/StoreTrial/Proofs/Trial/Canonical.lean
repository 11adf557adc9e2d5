import StoreTrial.Proofs.Trial.SelfCheck

/-!
# The canonical form of a stream of operations

A stream that was read can be written again, since the fields of a line are just the texts that fit
on a line. The text that is written is its canonical form (`OperationStream.canonical`). It is read
as the same operations, and it is its own canonical form (`OperationStream.canonical_of_encode`). No
two lists of operations have one text (`OperationStream.encode_inj`), so two streams have one
canonical form exactly if they are read as the same operations (`OperationStream.canonical_unique`),
and then the same outcomes are expected of both.
-/

namespace StoreTrial

namespace OperationStream

/-- The canonical form of a stream is the text of its operations. -/
def canonical (text : String) : Except Fault String := do
  let decoded ← decode text
  encode decoded.entries

/-- Writable operations are determined by their renderings, in order. -/
theorem map_render_inj {first second : List Operation}
    (hfirst : ∀ operation ∈ first, operation.Writable)
    (hsecond : ∀ operation ∈ second, operation.Writable)
    (h : first.map Operation.render = second.map Operation.render) : first = second := by
  -- Each rendering is read back as the operation that it was written for.
  have hread : ∀ operations : List Operation, (∀ operation ∈ operations, operation.Writable) →
      (operations.map Operation.render).map (fun line => Operation.decode 0 line.toList) =
        operations.map .ok := by
    intro operations hwritable
    rw [List.map_map]
    exact List.map_congr_left fun operation hoperation =>
      Operation.decode_render (hwritable operation hoperation)
  have hentries : first.map (Except.ok (ε := Fault)) = second.map .ok := by
    rw [← hread first hfirst, h, hread second hsecond]
  exact (List.map_inj_right fun _ _ => Except.ok.inj).mp hentries

/-- No two lists of operations have one text. -/
theorem encode_inj {first second : List Operation} {text : String}
    (hfirst : encode first = .ok text) (hsecond : encode second = .ok text) : first = second := by
  obtain ⟨hwritable, rfl⟩ := encode_eq_ok_iff.mp hfirst
  obtain ⟨hwritable', htext⟩ := encode_eq_ok_iff.mp hsecond
  -- The text falls apart into lines in one way only, since no line has a line feed in it.
  have hfeed := lineFeed_notMem_of_mem_map_render hwritable
  have hfeed' := lineFeed_notMem_of_mem_map_render hwritable'
  exact map_render_inj hwritable hwritable' ((Frame.encode_inj hfeed hfeed').mp htext)

section

variable {text : String} {decoded : Decoded Operation}

/-- The operations of a stream that was read can be written. -/
theorem exists_encode_of_decode (h : decode text = .ok decoded) :
    ∃ form, encode decoded.entries = .ok form :=
  ⟨_, encode_eq_ok_iff.mpr ⟨writable_of_decode h, rfl⟩⟩

/-- A text that was written is read back as the operations that it was written for, if their number
fits in 64 bits. -/
theorem decode_of_encode {operations : List Operation} (h : encode operations = .ok text)
    (hlength : operations.length < UInt64.size) : decode text = .ok ⟨operations, 0⟩ := by
  obtain ⟨hwritable, rfl⟩ := encode_eq_ok_iff.mp h
  exact decode_render hwritable hlength

/-- The canonical form of a stream that was read is the text of its operations. -/
theorem canonical_of_decode (h : decode text = .ok decoded) :
    canonical text = encode decoded.entries := by
  unfold canonical
  rw [h]
  rfl

/-- A text that was written is its own canonical form. -/
theorem canonical_of_encode {operations : List Operation} (h : encode operations = .ok text)
    (hlength : operations.length < UInt64.size) : canonical text = .ok text := by
  rw [canonical_of_decode (decode_of_encode h hlength), h]

end

/-- The operations of a stream that was read can be written again. What is written, the canonical
form of the stream, is read as the same operations with no line left over, and it is its own
canonical form. Two streams that were read have one canonical form if and only if their operations
are the same, and then the text of the outcomes that are expected of them is the same. -/
theorem canonical_unique {first second : String} {read read' : Decoded Operation}
    (hfirst : decode first = .ok read) (hsecond : decode second = .ok read') :
    (∃ form, encode read.entries = .ok form ∧ canonical first = .ok form ∧
      decode form = .ok ⟨read.entries, 0⟩ ∧ canonical form = .ok form) ∧
    (canonical first = canonical second ↔ read.entries = read'.entries) ∧
    (canonical first = canonical second → ∃ answers,
      (Trial.expectedText first).run.value = .ok answers ∧
      (Trial.expectedText second).run.value = .ok answers) := by
  obtain ⟨form, hform⟩ := exists_encode_of_decode hfirst
  have hlength : read.entries.length < UInt64.size := Frame.length_lt_of_decode hfirst
  have hunique : canonical first = canonical second ↔ read.entries = read'.entries := by
    rw [canonical_of_decode hfirst, canonical_of_decode hsecond]
    constructor
    · intro heq
      exact encode_inj hform (heq ▸ hform)
    · intro heq
      rw [heq]
  refine ⟨⟨form, hform, ?_, decode_of_encode hform hlength, canonical_of_encode hform hlength⟩,
    hunique, fun heq => ?_⟩
  · rw [canonical_of_decode hfirst, hform]
  · -- What is expected depends on the operations alone.
    rw [Trial.value_expectedText, Trial.value_expectedText, hfirst, hsecond]
    simp only [Except.map, hunique.mp heq]
    exact ⟨_, rfl, rfl⟩

/-- A signed count, returns, other blanks and a line left over are not part of the canonical
form. -/
theorem canonical_unique_of_blanks :
    decode "+2\r\n2\u3000A -ERROR-\r\n\t1  A\nmore" =
        .ok ⟨[.write "A" "-ERROR-", .read "A"], 1⟩ ∧
      decode "002\n2 A\t-ERROR-\n1 A" = .ok ⟨[.write "A" "-ERROR-", .read "A"], 0⟩ ∧
      canonical "+2\r\n2\u3000A -ERROR-\r\n\t1  A\nmore" =
        canonical "002\n2 A\t-ERROR-\n1 A" := by
  have hfirst : decode "+2\r\n2\u3000A -ERROR-\r\n\t1  A\nmore" =
      .ok ⟨[.write "A" "-ERROR-", .read "A"], 1⟩ := rfl
  have hsecond : decode "002\n2 A\t-ERROR-\n1 A" =
      .ok ⟨[.write "A" "-ERROR-", .read "A"], 0⟩ := rfl
  exact ⟨hfirst, hsecond, (canonical_unique hfirst hsecond).2.1.mpr rfl⟩

end OperationStream

end StoreTrial
