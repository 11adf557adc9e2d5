import StoreTrial.Proofs.Wire.Frame
import StoreTrial.Proofs.Wire.OperationLine

/-!
# Streams of operations can be read back

A stream of operations is written exactly when every operation in it is writable, and otherwise
refused for its first misfit (`encode_eq_ok_iff`, `encode_eq_error_iff`). What is written is read
back as the same operations, and no line is left over (`decode_render`). The check before writing
is exact: `encode_guard_exact` says that it lets an operation pass if and only if the operation can
be read back.
-/

namespace StoreTrial.OperationStream

open Text Operation

/-- Writing a stream puts the lines of its operations into a frame. -/
theorem encode_eq (operations : List Operation) :
    encode operations = (operations.mapM Operation.encode).map Frame.encode := by
  unfold encode
  cases operations.mapM Operation.encode <;> rfl

/-- Operations have lines exactly when all of them are writable. -/
theorem mapM_encode_eq_ok_iff {operations : List Operation} {ls : List String} :
    operations.mapM Operation.encode = .ok ls ↔
      (∀ operation ∈ operations, operation.Writable) ∧ ls = operations.map render := by
  rw [mapM_eq_ok_iff]
  induction operations generalizing ls with
  | nil => cases ls <;> simp
  | cons operation operations ih =>
    cases ls with
    | nil => simp
    | cons line ls =>
      rw [List.map_cons, List.map_cons, List.cons.injEq, ih, Operation.encode_eq_ok_iff,
        List.forall_mem_cons, List.map_cons, List.cons.injEq]
      constructor
      · rintro ⟨⟨hhead, hline⟩, htail, hls⟩
        exact ⟨⟨hhead, htail⟩, hline, hls⟩
      · rintro ⟨⟨hhead, htail⟩, hline, hls⟩
        exact ⟨⟨hhead, hline⟩, htail, hls⟩

/-- A stream is written exactly when all its operations are writable. -/
theorem encode_eq_ok_iff {operations : List Operation} {text : String} :
    encode operations = .ok text ↔
      (∀ operation ∈ operations, operation.Writable) ∧
        text = Frame.encode (operations.map render) := by
  rw [encode_eq]
  constructor
  · intro h
    cases hls : operations.mapM Operation.encode with
    | error fault =>
      rw [hls] at h
      contradiction
    | ok ls =>
      obtain ⟨hwritable, rfl⟩ := mapM_encode_eq_ok_iff.mp hls
      rw [hls] at h
      exact ⟨hwritable, (Except.ok.inj h).symm⟩
  · rintro ⟨hwritable, rfl⟩
    rw [mapM_encode_eq_ok_iff.mpr ⟨hwritable, rfl⟩]
    rfl

/-- A stream is refused for the first operation that is not writable, and for the first misfit of
that operation. -/
theorem encode_eq_error_iff {operations : List Operation} {fault : Fault} :
    encode operations = .error fault ↔ ∃ before operation after part,
      operations = before ++ operation :: after ∧
      (∀ earlier ∈ before, ∃ line, earlier.encode = .ok line) ∧
      operation.misfit? = some part ∧ fault = misfitFault part := by
  have hmap : encode operations = .error fault ↔
      operations.mapM Operation.encode = .error fault := by
    rw [encode_eq]
    cases operations.mapM Operation.encode <;> simp [Except.map]
  have hone : ∀ operation : Operation, operation.encode = .error fault ↔
      ∃ part, operation.misfit? = some part ∧ fault = misfitFault part := by
    intro operation
    rw [Operation.encode_eq]
    cases operation.misfit? <;> simp [eq_comm]
  rw [hmap, mapM_eq_error_iff]
  constructor
  · rintro ⟨before, operation, after, hsplit, hbefore, hfault⟩
    obtain ⟨part, hpart, hfault⟩ := (hone operation).mp hfault
    exact ⟨before, operation, after, part, hsplit, hbefore, hpart, hfault⟩
  · rintro ⟨before, operation, after, part, hsplit, hbefore, hpart, hfault⟩
    exact ⟨before, operation, after, hsplit, hbefore, (hone operation).mpr ⟨part, hpart, hfault⟩⟩

/-- The operations of a stream that was read are writable. -/
theorem writable_of_decode {text : String} {decoded : Decoded Operation}
    (h : decode text = .ok decoded) : ∀ operation ∈ decoded.entries, operation.Writable := by
  intro operation hoperation
  obtain ⟨body, -, hmap, -⟩ := Frame.decode_eq_ok_iff.mp h
  have hmem : (Except.ok operation : Except Fault Operation) ∈ decoded.entries.map .ok :=
    List.mem_map_of_mem hoperation
  rw [← hmap] at hmem
  obtain ⟨line, -, hline⟩ := List.mem_map.mp hmem
  exact Operation.writable_of_decode hline

/-- A line that is written for a writable operation is read as it stands. -/
theorem dropReturn_render {operation : Operation} (h : operation.Writable) :
    dropReturn operation.render.toList = operation.render.toList :=
  dropReturn_of_notMem (notMem_render h (by decide) (by decide))

/-- The renderings of writable operations have no line feeds in them. -/
theorem lineFeed_notMem_of_mem_map_render {operations : List Operation}
    (h : ∀ operation ∈ operations, operation.Writable) :
    ∀ line ∈ operations.map render, '\n' ∉ line.toList := by
  rw [List.forall_mem_map]
  exact fun operation hoperation => lineFeed_notMem_render (h operation hoperation)

/-- The lines of the text of writable operations are their number and their renderings. -/
theorem lines_render {operations : List Operation}
    (h : ∀ operation ∈ operations, operation.Writable) :
    lines (Frame.encode (operations.map render)).toList =
      Nat.toDigits 10 operations.length ::
        operations.map fun operation => operation.render.toList := by
  have hfeed := lineFeed_notMem_of_mem_map_render h
  have hreturn : (operations.map fun operation => dropReturn operation.render.toList) =
      operations.map fun operation => operation.render.toList :=
    List.map_congr_left fun operation hoperation => dropReturn_render (h operation hoperation)
  rw [Frame.toList_encode, lines_joinLines (Frame.lineFeed_notMem_of_mem_rows hfeed), Frame.rows,
    List.map_cons, dropReturn_of_unbroken (unbroken_toDigits _), List.length_map, List.map_map,
    List.map_map]
  exact congrArg _ hreturn

/-- The text of writable operations has a frame with their renderings as its lines, if their number
fits in 64 bits. -/
theorem framed_render {operations : List Operation}
    (h : ∀ operation ∈ operations, operation.Writable)
    (hlength : operations.length < UInt64.size) :
    Frame.Framed (Frame.encode (operations.map render)) operations.length
      (operations.map fun operation => operation.render.toList) := by
  refine ⟨_, lines_render h, ?_, hlength⟩
  rw [trim_of_not_blank (unbroken_toDigits _).2]
  exact Decimal.denotes_toDigits _

/-- Writable operations are read back from their text, if their number fits in 64 bits. -/
theorem decode_render {operations : List Operation}
    (h : ∀ operation ∈ operations, operation.Writable)
    (hlength : operations.length < UInt64.size) :
    decode (Frame.encode (operations.map render)) = .ok ⟨operations, 0⟩ := by
  have hall : (operations.map fun operation => operation.render.toList).length ≤
      operations.length := Nat.le_of_eq (List.length_map _)
  refine Frame.decode_eq_ok_iff.mpr ⟨_, framed_render h hlength, ?_, ?_⟩
  · rw [List.take_of_length_le hall, List.zipIdx_map, List.map_map]
    -- A line is accepted whatever its number is, so the numbers drop out.
    have hentry : ∀ numbered ∈ operations.zipIdx 2,
        Operation.decode numbered.2 numbered.1.render.toList = .ok numbered.1 :=
      fun numbered hnumbered =>
        Operation.decode_render (h _ (List.fst_mem_of_mem_zipIdx hnumbered))
    exact (List.map_congr_left hentry).trans (Frame.map_fst_zipIdx Except.ok operations 2)
  · exact (Frame.extraLines_of_length_le hall).symm

/-- The text of writable operations is read exactly if their number fits in 64 bits, and then as
these operations. -/
theorem decode_render_iff {operations : List Operation}
    (h : ∀ operation ∈ operations, operation.Writable) {decoded : Decoded Operation} :
    decode (Frame.encode (operations.map render)) = .ok decoded ↔
      operations.length < UInt64.size ∧ decoded = ⟨operations, 0⟩ := by
  constructor
  · intro hdecode
    obtain ⟨body, hframe, -⟩ := Frame.decode_eq_ok_iff.mp hdecode
    have hcount := (hframe.eq_of_lines (lines_render h)).1
    have hfits : operations.length < UInt64.size := hcount ▸ Frame.length_lt_of_decode hdecode
    rw [decode_render h hfits] at hdecode
    exact ⟨hfits, (Except.ok.inj hdecode).symm⟩
  · rintro ⟨hfits, rfl⟩
    exact decode_render h hfits

/-- A stream is written if and only if each key and value in it is a text that is not empty and has
no blank in it, and then it is read back as the same operations and nothing else (the number of
entries on its first line has to fit in 64 bits). This is no more and no less than it takes: an
operation is written if and only if it is read back from its rendering. A stream that is not written
is refused for the first misfit of the first operation that has one, its key before its value. -/
theorem encode_guard_exact (operations : List Operation) :
    ((∃ text, encode operations = .ok text) ↔
      ∀ operation ∈ operations, ∀ part ∈ operation.texts,
        part.2 ≠ "" ∧ ∀ c ∈ part.2.toList, isBlank c = false) ∧
    (∀ text, encode operations = .ok text →
      (decode text = .ok ⟨operations, 0⟩ ↔ operations.length < UInt64.size)) ∧
    (∀ (operation : Operation) (number : Nat), (∃ line, operation.encode = .ok line) ↔
      Operation.decode number operation.render.toList = .ok operation) ∧
    (∀ fault, encode operations = .error fault ↔ ∃ before operation after part,
      operations = before ++ operation :: after ∧
      (∀ earlier ∈ before, ∃ line, earlier.encode = .ok line) ∧
      operation.misfit? = some part ∧ fault = misfitFault part) := by
  refine ⟨?_, ?_, ?_, fun fault => encode_eq_error_iff⟩
  · have hfits : ∀ part : Field × String,
        Fits part ↔ part.2 ≠ "" ∧ ∀ c ∈ part.2.toList, isBlank c = false := by
      intro part
      rw [Fits, Unbroken, ne_eq, String.toList_eq_nil_iff]
    simp only [encode_eq_ok_iff, exists_and_left, exists_eq, and_true, Writable, hfits]
  · intro text htext
    obtain ⟨hwritable, rfl⟩ := encode_eq_ok_iff.mp htext
    exact ⟨Frame.length_lt_of_decode, decode_render hwritable⟩
  · intro operation number
    rw [decode_render_eq_ok_iff]
    simp [Operation.encode_eq_ok_iff]

end StoreTrial.OperationStream
