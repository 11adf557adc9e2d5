import StoreTrial.Proofs.Text.Cuts
import StoreTrial.Proofs.Wire.Grammar

/-!
# Torn streams of operations

The text of operations may reach its reader torn, cut off at any place. The first line says how many
lines there must be, and has no zero before its other digits that a cut could leave over; the tag on
a line says how many fields there must be. So a cut shows if it is anywhere before the last field of
the last operation, and the stream is refused (`decode_ne_ok_of_cut_before`). A cut inside that
field does not show: the stream is read with the part of the field that is left
(`decode_eq_ok_iff_of_part`). `torn_stream_detected` says so of every cut.
-/

namespace StoreTrial

open Text

/-! ## The last field of a line -/

namespace Operation

/-- The line of an operation up to its last field. -/
def stem : Operation → String
  | read _ => s!"{Kind.read.tag} "
  | write key _ => s!"{Kind.write.tag} {key} "
  | delete _ => s!"{Kind.delete.tag} "

/-- The last field on the line of an operation: the value of a write, and the key of others. -/
def lastField : Operation → String
  | read key => key
  | write _ value => value
  | delete key => key

/-- The operation with another last field. -/
def withLastField (operation : Operation) (part : String) : Operation :=
  match operation with
  | read _ => read part
  | write key _ => write key part
  | delete _ => delete part

/-- A line ends with its last field. -/
theorem render_eq (operation : Operation) :
    operation.render = operation.stem ++ operation.lastField := by
  cases operation <;> simp [render, stem, lastField, toString, String.append_assoc]

/-- Another last field leaves the line before it as it is. -/
@[simp]
theorem stem_withLastField (operation : Operation) (part : String) :
    (operation.withLastField part).stem = operation.stem := by
  cases operation <;> rfl

/-- The last field is the one that was put there. -/
@[simp]
theorem lastField_withLastField (operation : Operation) (part : String) :
    (operation.withLastField part).lastField = part := by
  cases operation <;> rfl

/-- An operation with its own last field is itself. -/
@[simp]
theorem withLastField_lastField (operation : Operation) :
    operation.withLastField operation.lastField = operation := by
  cases operation <;> rfl

/-- An operation stays writable with another unbroken last field. -/
theorem Writable.withLastField {operation : Operation} (h : operation.Writable) {part : String}
    (hpart : Unbroken part.toList) : (operation.withLastField part).Writable := by
  cases operation with
  | read key | delete key => exact List.forall_mem_singleton.mpr hpart
  | write key value =>
    have hkey : Fits (.key, key) := h _ List.mem_cons_self
    exact List.forall_mem_cons.mpr ⟨hkey, List.forall_mem_singleton.mpr hpart⟩

/-- The last field of a writable operation is unbroken. -/
theorem Writable.unbroken_lastField {operation : Operation} (h : operation.Writable) :
    Unbroken operation.lastField.toList := by
  cases operation with
  | read key | delete key => exact h (.key, key) List.mem_cons_self
  | write key value => exact h (.value, value) (List.mem_cons_of_mem _ List.mem_cons_self)

/-- A start of an unbroken text with a space after it has one field at most. -/
theorem length_fields_le_one {key start : List Char} (h : Unbroken key)
    (hstart : start <+: key ++ [' ']) : (fields start).length ≤ 1 := by
  rcases List.prefix_concat_iff.mp hstart with rfl | hkey
  · rw [fields_append_space h]
    exact Nat.le_refl 1
  · rw [fields_of_not_blank fun c hc => h.2 c (hkey.mem hc)]
    split <;> simp

/-- A start of a text with a tag and a space before it is empty, or it has the whole tag. -/
theorem fields_of_prefix_tag {kind : Kind} {start rest : List Char}
    (hstart : start <+: kind.tag.toList ++ ' ' :: rest) :
    fields start = [] ∨
      ∃ others, fields start = kind.tag.toList :: fields others ∧ others <+: rest := by
  have hdigit : ∃ digit, kind.tag.toList = [digit] ∧ Unbroken [digit] := by
    cases kind <;> exact ⟨_, rfl, by decide⟩
  obtain ⟨digit, htag, hunbroken⟩ := hdigit
  rw [htag] at hstart ⊢
  rcases List.prefix_cons_iff.mp hstart with rfl | ⟨behind, rfl, hbehind⟩
  · exact .inl rfl
  rcases List.prefix_cons_iff.mp hbehind with rfl | ⟨others, rfl, hothers⟩
  · exact .inr ⟨[], fields_of_unbroken hunbroken, List.nil_prefix⟩
  · exact .inr ⟨others, fields_append_space hunbroken others, hothers⟩

/-- After the tag of a line and up to its last field, there are too few fields. -/
theorem exists_stem_eq {operation : Operation} (h : operation.Writable) :
    ∃ rest, operation.stem.toList = operation.kind.tag.toList ++ ' ' :: rest ∧
      ∀ others, others <+: rest → (fields others).length + 1 < operation.kind.fieldCount := by
  have hnone : ∀ others : List Char, others <+: [] → (fields others).length + 1 < 2 := by
    intro others hothers
    rw [List.prefix_nil.mp hothers]
    exact Nat.lt_succ_self 1
  cases operation with
  | read key | delete key => exact ⟨[], by simp [stem, toString, kind], hnone⟩
  | write key value =>
    have hkey : Unbroken key.toList := h (.key, key) List.mem_cons_self
    -- The value is missing: there is the key at most.
    refine ⟨key.toList ++ [' '], by simp [stem, toString, kind], fun others hothers => ?_⟩
    exact Nat.succ_lt_succ (Nat.lt_succ_of_le (length_fields_le_one hkey hothers))

/-- A start of a line up to its last field holds no operation. -/
theorem not_holds_of_prefix_stem {operation : Operation} (h : operation.Writable)
    {start : List Char} (hstart : start <+: operation.stem.toList) (operation' : Operation) :
    ¬ Holds start operation' := by
  obtain ⟨rest, hstem, hfew⟩ := exists_stem_eq h
  rw [hstem] at hstart
  rw [holds_iff]
  intro hholds
  rcases fields_of_prefix_tag hstart with hnil | ⟨others, hfields, hothers⟩
  · rw [hnil] at hholds
    contradiction
  · rw [hfields, List.map_cons, List.cons.injEq, String.ofList_toList] at hholds
    obtain ⟨htag, htexts⟩ := hholds
    -- The tag is that of one kind only, and it settles how many fields there are.
    have hkind : operation.kind = operation'.kind := by
      rw [← Option.some.injEq, ← Kind.ofTag?_eq_some_iff.mpr htag, Kind.ofTag?_eq_some_iff.mpr rfl]
    have hlength := congrArg List.length htexts
    rw [List.length_map, List.length_map] at hlength
    have hcount : operation'.texts.length + 1 = operation'.kind.fieldCount := by
      cases operation' <;> rfl
    have hless := hfew others hothers
    rw [hkind] at hless
    omega

end Operation

/-! ## A cut anywhere in a stream -/

namespace OperationStream

open Operation

/-- The lines of a stream before that of its last operation, where `before` are the operations
before that one. -/
def firstLines (before : List Operation) : List (List Char) :=
  Nat.toDigits 10 (before.length + 1) :: before.map fun operation => operation.render.toList

section

variable {before : List Operation} {last : Operation}

/-- The text of operations, taken apart before the last field. -/
theorem toList_encode_concat (before : List Operation) (last : Operation) :
    (Frame.encode ((before ++ [last]).map render)).toList =
      joinLines (firstLines before) ++ last.stem.toList ++ (last.lastField.toList ++ ['\n']) := by
  have hrows : Frame.rows ((before ++ [last]).map render) =
      firstLines before ++ [last.render.toList] := by
    simp [Frame.rows, firstLines, Function.comp_def]
  have hjoin : joinLines (firstLines before ++ [last.render.toList]) =
      joinLines (firstLines before) ++ joinLines [last.render.toList] := List.flatMap_append
  rw [Frame.toList_encode, hrows, hjoin, render_eq, String.toList_append]
  simp [joinLines]

/-- The lines before that of the last operation have no line feeds in them and are read as they
stand. -/
theorem mem_firstLines (h : ∀ operation ∈ before, operation.Writable) :
    ∀ line ∈ firstLines before, '\n' ∉ line ∧ dropReturn line = line := by
  unfold firstLines
  rw [List.forall_mem_cons, List.forall_mem_map]
  have hdigits : Unbroken (Nat.toDigits 10 (before.length + 1)) := unbroken_toDigits _
  refine ⟨⟨hdigits.lineFeed_notMem, dropReturn_of_unbroken hdigits⟩, fun operation hoperation => ?_⟩
  have hwritable := h operation hoperation
  exact ⟨lineFeed_notMem_render hwritable, dropReturn_render hwritable⟩

/-- A stream of which a part of the last field is left is read with that part as its last field. -/
theorem decode_eq_ok_iff_of_part (h : ∀ operation ∈ before ++ [last], operation.Writable)
    {torn : String} {part : List Char} (hpart : part ≠ []) (hcut : part <+: last.lastField.toList)
    (htorn : torn.toList = joinLines (firstLines before) ++ last.stem.toList ++ part)
    {decoded : Decoded Operation} :
    decode torn = .ok decoded ↔ (before ++ [last]).length < UInt64.size ∧
      decoded = ⟨before ++ [last.withLastField (String.ofList part)], 0⟩ := by
  obtain ⟨hbefore, hlast⟩ := List.forall_mem_append.mp h
  rw [List.forall_mem_singleton] at hlast
  let shortened := last.withLastField (String.ofList part)
  have hshortened : shortened.Writable := by
    refine hlast.withLastField ?_
    rw [String.toList_ofList]
    exact ⟨hpart, fun c hc => hlast.unbroken_lastField.2 c (hcut.mem hc)⟩
  have hwritable : ∀ operation ∈ before ++ [shortened], operation.Writable :=
    List.forall_mem_append.mpr ⟨hbefore, List.forall_mem_singleton.mpr hshortened⟩
  have hrender : last.stem.toList ++ part = shortened.render.toList := by
    rw [render_eq, String.toList_append, stem_withLastField, lastField_withLastField,
      String.toList_ofList]
  -- Only the last line feed is missing from the text with the shortened field.
  have hlines : lines torn.toList =
      lines (Frame.encode ((before ++ [shortened]).map render)).toList := by
    have hne : shortened.render.toList ≠ [] := by
      rw [← hrender]
      exact List.append_ne_nil_of_right_ne_nil _ hpart
    have hfirst := mem_firstLines hbefore
    have hfeed : ∀ line ∈ firstLines before ++ (shortened.render.toList ++ []) :: [],
        '\n' ∉ line := by
      refine List.forall_mem_append.mpr ⟨fun line hline => (hfirst line hline).1, ?_⟩
      rw [List.forall_mem_singleton, List.append_nil]
      exact lineFeed_notMem_render hshortened
    rw [htorn, List.append_assoc, hrender,
      lines_of_cut hfeed fun line hline => (hfirst line hline).2, if_neg hne,
      lines_render hwritable]
    simp [firstLines]
  have hlength : (before ++ [shortened]).length = (before ++ [last]).length := by simp
  rw [decode, Frame.decode_congr hlines, ← hlength]
  exact decode_render_iff hwritable

/-- The lines that are left of a stream that ends before the last field of its last operation: whole
lines from its start, and a part of the next line unless nothing of that is left. -/
theorem lines_of_prefix_firstLines (h : ∀ operation ∈ before ++ [last], operation.Writable)
    {torn : List Char} (hcut : torn <+: joinLines (firstLines before) ++ last.stem.toList) :
    ∃ whole part missing after,
      firstLines before ++ [last.stem.toList] = whole ++ (part ++ missing) :: after ∧
      lines torn = whole ++ (if part = [] then [] else [part]) := by
  obtain ⟨hbefore, hlast⟩ := List.forall_mem_append.mp h
  have hstem : last.stem.toList <+: last.render.toList := by
    rw [render_eq, String.toList_append]
    exact List.prefix_append _ _
  obtain ⟨rest, hrest⟩ := hcut
  -- What stands before the last field is made of lines too, but for a line feed at its end.
  have hjoin : joinLines (firstLines before ++ [last.stem.toList]) = torn ++ (rest ++ ['\n']) := by
    rw [← List.append_assoc, hrest]
    simp [joinLines]
  obtain ⟨whole, part, missing, after, hsplit, rfl, -⟩ := exists_cut hjoin (by simp)
  have hfeed : ∀ line ∈ whole ++ (part ++ missing) :: after, '\n' ∉ line := by
    rw [← hsplit]
    refine List.forall_mem_append.mpr ⟨fun line hline => (mem_firstLines hbefore line hline).1, ?_⟩
    rw [List.forall_mem_singleton]
    exact fun hmem => lineFeed_notMem_render (hlast last List.mem_cons_self) (hstem.mem hmem)
  -- The line of the last operation is not whole.
  have hwhole : whole <+: firstLines before := by
    refine List.prefix_of_prefix_length_le (hsplit ▸ List.prefix_append _ _)
      (List.prefix_append _ [last.stem.toList]) ?_
    have hlength := congrArg List.length hsplit
    simp only [List.length_append, List.length_cons, List.length_nil] at hlength
    omega
  exact ⟨whole, part, missing, after, hsplit, lines_of_cut hfeed fun line hline =>
    (mem_firstLines hbefore line (hwhole.mem hline)).2⟩

/-- A frame whose only line is a part of the digits of a positive number announces entries, which
are missing. -/
theorem pos_of_framed_digits {torn : String} {n count : Nat} {body : List (List Char)}
    (h : Frame.Framed torn count body) {part : List Char} (hpart : part <+: Nat.toDigits 10 (n + 1))
    (hlines : lines torn.toList = if part = [] then [] else [part]) : 0 < count ∧ body = [] := by
  obtain ⟨header, hheader, hcount, -⟩ := h
  rw [hlines] at hheader
  cases part with
  | nil => contradiction
  | cons digit others =>
    rw [if_neg (List.cons_ne_nil _ _), List.cons.injEq] at hheader
    obtain ⟨rfl, hbody⟩ := hheader
    have hdigit : digit ∈ Nat.toDigits 10 (n + 1) := hpart.mem List.mem_cons_self
    have hfirst : digit ≠ '0' := by
      rintro rfl
      obtain ⟨missing, hmissing⟩ := hpart
      refine Decimal.head?_toDigits_ne_zero (Nat.succ_pos n) ?_
      rw [← hmissing]
      rfl
    rw [trim_of_not_blank fun c hc => (unbroken_toDigits _).2 c (hpart.mem hc)] at hcount
    refine ⟨Nat.pos_of_ne_zero ?_, hbody.symm⟩
    rintro rfl
    exact Decimal.not_denotes_zero
      (Nat.isDigit_of_mem_toDigits (by decide) (by decide) hdigit) hfirst hcount

/-- A stream that ends before the last field of its last operation is not accepted. -/
theorem decode_ne_ok_of_cut_before (h : ∀ operation ∈ before ++ [last], operation.Writable)
    {torn : String} (hcut : torn.toList <+: joinLines (firstLines before) ++ last.stem.toList)
    (decoded : Decoded Operation) : decode torn ≠ .ok decoded := by
  obtain ⟨whole, part, missing, after, hsplit, hlines⟩ := lines_of_prefix_firstLines h hcut
  intro hdecode
  obtain ⟨body, hframe, -⟩ := Frame.decode_eq_ok_iff.mp hdecode
  obtain ⟨hcount, hholds⟩ := (exists_decode_eq_ok_iff hframe).mp ⟨decoded, hdecode⟩
  cases whole with
  | nil =>
    -- The cut is in the first line, and no line follows what is left of it.
    have hdigits : Nat.toDigits 10 (before.length + 1) = part ++ missing := (List.cons.inj hsplit).1
    obtain ⟨hpos, rfl⟩ := pos_of_framed_digits hframe (hdigits ▸ List.prefix_append _ _) hlines
    exact absurd hcount (Nat.not_le.mpr hpos)
  | cons header whole =>
    -- The first line is there, so the line of the last operation has to be among the others.
    obtain ⟨hheader, hothers⟩ : Nat.toDigits 10 (before.length + 1) = header ∧
        (before.map fun operation => operation.render.toList) ++ [last.stem.toList] =
          whole ++ (part ++ missing) :: after := List.cons.inj hsplit
    rw [← hheader, List.cons_append] at hlines
    obtain ⟨hannounced, rfl⟩ := hframe.eq_of_lines hlines
    have hlength := congrArg List.length hothers
    simp only [List.length_append, List.length_map, List.length_cons, List.length_nil] at hlength
    rw [List.length_append] at hcount
    have hpart : part ≠ [] := by
      rintro rfl
      simp at hcount
      omega
    rw [if_neg hpart] at hcount hholds
    obtain rfl : after = [] := by
      rw [List.length_singleton] at hcount
      exact List.eq_nil_of_length_eq_zero (by omega)
    have hstem : [last.stem.toList] = [part ++ missing] := (List.append_inj' hothers rfl).2
    have hcut : part <+: last.stem.toList := by
      rw [(List.cons.inj hstem).1]
      exact List.prefix_append _ _
    have hline : part ∈ (whole ++ [part]).take decoded.entries.length := by
      rw [List.take_of_length_le]
      · exact List.mem_append_right _ List.mem_cons_self
      · simp
        omega
    obtain ⟨operation, hoperation⟩ := hholds part hline
    exact not_holds_of_prefix_stem (h last (by simp)) hcut operation hoperation

/-- Where a stream of operations is cut off: before its last field, or in or behind that field. -/
theorem prefix_or_exists_part {torn missing : String}
    (htorn : Frame.encode ((before ++ [last]).map render) = torn ++ missing) :
    torn.toList <+: joinLines (firstLines before) ++ last.stem.toList ∨
      ∃ part, part ≠ [] ∧ part <+: last.lastField.toList ++ ['\n'] ∧
        torn.toList = joinLines (firstLines before) ++ last.stem.toList ++ part := by
  have hlist : joinLines (firstLines before) ++ last.stem.toList ++
      (last.lastField.toList ++ ['\n']) = torn.toList ++ missing.toList := by
    rw [← toList_encode_concat, htorn, String.toList_append]
  rcases List.append_eq_append_iff.mp hlist with ⟨part, hpart, hrest⟩ | ⟨part, hstem, -⟩
  · by_cases hne : part = []
    · rw [hne, List.append_nil] at hpart
      exact .inl (hpart ▸ List.prefix_rfl)
    · exact .inr ⟨part, hne, ⟨_, hrest.symm⟩, hpart⟩
  · exact .inl ⟨part, hstem.symm⟩

/-- A torn stream is accepted exactly if it ends at least one character behind the start of the last
field, and it is read with the part of that field that is left. -/
theorem exists_part_decode_iff (h : ∀ operation ∈ before ++ [last], operation.Writable)
    {torn missing : String}
    (htorn : Frame.encode ((before ++ [last]).map render) = torn ++ missing) :
    ∃ part : String, part ≠ "" ∧ part.toList <+: last.lastField.toList ∧
      ∀ decoded, decode torn = .ok decoded ↔ (before ++ [last]).length < UInt64.size ∧
        (joinLines (firstLines before) ++ last.stem.toList).length < torn.length ∧
        decoded = ⟨before ++ [last.withLastField part], 0⟩ := by
  have hlast : last.Writable := h last (by simp)
  have hfield : last.lastField ≠ "" := by
    rw [ne_eq, ← String.toList_eq_nil_iff]
    exact hlast.unbroken_lastField.1
  rw [← String.length_toList]
  rcases prefix_or_exists_part htorn with hcut | ⟨part, hne, hpart, htoList⟩
  · refine ⟨last.lastField, hfield, List.prefix_rfl, fun decoded => ?_⟩
    refine iff_of_false (decode_ne_ok_of_cut_before h hcut decoded) ?_
    rintro ⟨-, hlong, -⟩
    exact absurd hcut.length_le (Nat.not_le.mpr hlong)
  · have hlong : (joinLines (firstLines before) ++ last.stem.toList).length <
        torn.toList.length := by
      have hpos : 0 < part.length := List.length_pos_of_ne_nil hne
      simp only [htoList, List.length_append]
      omega
    simp only [hlong, true_and]
    rcases List.prefix_concat_iff.mp hpart with rfl | hpart
    · -- The text is whole, and so is the field.
      have hwhole : torn = Frame.encode ((before ++ [last]).map render) := by
        rw [← String.toList_inj, toList_encode_concat, htoList]
      refine ⟨last.lastField, hfield, List.prefix_rfl, fun decoded => ?_⟩
      rw [hwhole, decode_render_iff h, withLastField_lastField]
    · refine ⟨String.ofList part, ?_, ?_, fun decoded =>
        decode_eq_ok_iff_of_part h hne hpart htoList⟩
      · rwa [ne_eq, ← String.toList_eq_nil_iff, String.toList_ofList]
      · rwa [String.toList_ofList]

end

/-- A stream without operations is read unless nothing of its text is left. -/
theorem decode_eq_ok_iff_of_torn_nil {torn missing : String}
    (htorn : Frame.encode [] = torn ++ missing) {decoded : Decoded Operation} :
    decode torn = .ok decoded ↔ 0 < torn.length ∧ decoded = ⟨[], 0⟩ := by
  have hcut : torn.toList <+: [] ++ ['0'] ++ ['\n'] := by
    have htext : (Frame.encode []).toList = [] ++ ['0'] ++ ['\n'] := rfl
    rw [← htext, htorn, String.toList_append]
    exact List.prefix_append _ _
  rw [List.prefix_concat_iff, List.prefix_concat_iff, List.prefix_nil] at hcut
  have hok : ∀ {whole : String}, decode whole = .ok ⟨[], 0⟩ → whole.length ≠ 0 →
      (decode whole = .ok decoded ↔ 0 < whole.length ∧ decoded = ⟨[], 0⟩) := by
    intro whole hwhole hne
    rw [hwhole, Except.ok.injEq, eq_comm]
    exact (and_iff_right (Nat.pos_of_ne_zero hne)).symm
  rcases hcut with hline | hdigit | hnothing
  · obtain rfl : torn = "0\n" := String.toList_inj.mp hline
    exact hok rfl (by decide)
  · obtain rfl : torn = "0" := String.toList_inj.mp hdigit
    exact hok rfl (by decide)
  · obtain rfl : torn = "" := String.toList_inj.mp hnothing
    constructor
    · intro hdecode
      contradiction
    · rintro ⟨hlong, -⟩
      contradiction

/-- The last field on the last line of a stream: that of the last operation or, if there is none,
the number of operations. -/
def lastField (operations : List Operation) : String :=
  operations.getLast?.elim "0" Operation.lastField

/-- Every torn stream of operations is detected, except if the cut is inside the very last field. If
a stream is cut off anywhere and still accepted, then it has as many operations as before and no
line besides them, all operations but the last are as they were, and so is the last one but for its
last field, of which a part is left that is not empty. The stream is accepted exactly if it ends at
least one character behind the start of the last field of its last operation, or for a stream
without operations behind the start of its first line (the number of operations has to fit in 64
bits). Every other stream is refused for one of its lines. -/
theorem torn_stream_detected {operations : List Operation} {text torn missing : String}
    (h : encode operations = .ok text) (htorn : text = torn ++ missing) :
    (∀ decoded, decode torn = .ok decoded →
      decoded.entries.length = operations.length ∧ decoded.extra = 0 ∧
      ∀ before last, operations = before ++ [last] → ∃ part : String, part ≠ "" ∧
        part.toList <+: last.lastField.toList ∧
        decoded.entries = before ++ [last.withLastField part]) ∧
    (∃ stem : String, text = stem ++ lastField operations ++ "\n" ∧
      ((∃ decoded, decode torn = .ok decoded) ↔
        operations.length < UInt64.size ∧ stem.length < torn.length)) ∧
    ∀ fault, decode torn = .error fault →
      ∃ number cause, fault = .malformedLine .operations number cause := by
  obtain ⟨hwritable, rfl⟩ := encode_eq_ok_iff.mp h
  rw [← and_assoc]
  refine ⟨?_, fun fault hfault => malformedLine_of_decode hfault⟩
  rcases List.eq_nil_or_concat operations with rfl | ⟨before, last, rfl⟩
  · have hiff : ∀ decoded, decode torn = .ok decoded ↔ 0 < torn.length ∧ decoded = ⟨[], 0⟩ :=
      fun decoded => decode_eq_ok_iff_of_torn_nil htorn
    refine ⟨fun decoded hdecode => ?_, "", rfl, ?_⟩
    · obtain ⟨-, rfl⟩ := (hiff decoded).mp hdecode
      exact ⟨rfl, rfl, fun before last hsplit =>
        absurd hsplit.symm (List.concat_ne_nil last before)⟩
    · simp only [hiff, exists_and_left, exists_eq, and_true]
      exact (and_iff_right (by decide)).symm
  · rw [List.concat_eq_append] at hwritable htorn ⊢
    obtain ⟨part, hne, hcut, hiff⟩ := exists_part_decode_iff hwritable htorn
    refine ⟨fun decoded hdecode => ?_,
      String.ofList (joinLines (firstLines before) ++ last.stem.toList), ?_, ?_⟩
    · obtain ⟨-, -, rfl⟩ := (hiff decoded).mp hdecode
      refine ⟨by simp, rfl, fun before' last' hsplit => ?_⟩
      obtain ⟨rfl, hlast⟩ := List.append_inj' hsplit rfl
      obtain rfl : last = last' := List.singleton_inj.mp hlast
      exact ⟨part, hne, hcut, rfl⟩
    · rw [← String.toList_inj, toList_encode_concat]
      simp [lastField]
    · rw [String.length_ofList]
      simp only [hiff, exists_and_left, exists_eq, and_true]

/-- A stream of two operations that ends within the last key is read with what is left of it. -/
theorem torn_stream_of_last_key :
    encode [.write "A" "Bc", .read "Key"] = .ok "2\n2 A Bc\n1 Key\n" ∧
      "2\n2 A Bc\n1 Key\n" = "2\n2 A Bc\n1 K" ++ "ey\n" ∧
      decode "2\n2 A Bc\n1 K" = .ok ⟨[.write "A" "Bc", .read "K"], 0⟩ ∧
      ∃ part : String, part ≠ "" ∧ part.toList <+: "Key".toList ∧
        [Operation.write "A" "Bc", .read "K"] = [.write "A" "Bc", .read part] := by
  have htorn : "2\n2 A Bc\n1 Key\n" = "2\n2 A Bc\n1 K" ++ "ey\n" := by decide
  have hencode : encode [.write "A" "Bc", .read "Key"] = .ok "2\n2 A Bc\n1 Key\n" := by rfl
  have hdecode : decode "2\n2 A Bc\n1 K" = .ok ⟨[.write "A" "Bc", .read "K"], 0⟩ := by rfl
  obtain ⟨hread, -, -⟩ := torn_stream_detected hencode htorn
  obtain ⟨-, -, hlast⟩ := hread _ hdecode
  exact ⟨hencode, htorn, hdecode, hlast [.write "A" "Bc"] (.read "Key") rfl⟩

end OperationStream

end StoreTrial
