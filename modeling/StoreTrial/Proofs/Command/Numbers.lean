import StoreTrial.Proofs.Command.Plan
import StoreTrial.Proofs.Wire.Framing

/-!
# All numbers are read alike

A count, a length, a seed and the first line of a stream are read as the number that the text spells
if that fits in 64 bits (`Decimal.Spells`), and a length is not zero. A text that spells no such
number is refused as a whole: no part of it and no remainder of a larger number is taken. For the
first line of a stream, `Heads` says which line that is, and
`Frame.exists_decode_eq_ok_iff_of_heads` and `Frame.decode_eq_error_one_iff_of_heads` say what
becomes of it, whatever the entries are. The main statement is `numbers_read_alike`.
-/

namespace StoreTrial

open Text

/-- The text starts with the line `header`, and `body` are the lines after it. -/
inductive Heads (header : String) : (text : String) → (body : List (List Char)) → Prop where
  /-- There is nothing else in the text. -/
  | alone (hne : header ≠ "") : Heads header header []
  /-- There is a line feed after the line. -/
  | followed (rest : String) : Heads header (header ++ "\n" ++ rest) (lines rest.toList)

/-- The first line of a text is read from it, up to a carriage return. -/
theorem Heads.exists_lines_eq {header text : String} {body : List (List Char)}
    (h : Heads header text body) (hheader : '\n' ∉ header.toList) :
    ∃ first, lines text.toList = first :: body ∧ trim first = trim header.toList := by
  cases h with
  | alone hne =>
    have hcharacters : header.toList ≠ [] := fun hnil => hne (String.toList_eq_nil_iff.mp hnil)
    refine ⟨header.toList, ?_, rfl⟩
    rw [lines_of_notMem hheader, if_neg hcharacters]
  | followed rest =>
    refine ⟨dropReturn header.toList, ?_, trim_dropReturn _⟩
    rw [String.toList_append, String.toList_append, List.append_assoc]
    exact lines_append_of_notMem hheader rest.toList

namespace Frame

variable {α : Type} {stream : Stream} {entry : Nat → List Char → Except Fault α}
  {header text : String} {count : Nat} {body : List (List Char)}

/-- The frame of a text announces the number that the first line spells, and the lines after that
line are its lines. -/
theorem framed_iff_of_heads (h : Heads header text body) (hheader : '\n' ∉ header.toList)
    {body' : List (List Char)} :
    Framed text count body' ↔
      Decimal.Spells header.toList count ∧ count < UInt64.size ∧ body' = body := by
  obtain ⟨first, hlines, htrim⟩ := h.exists_lines_eq hheader
  rw [← Decimal.denotes_trim_iff, ← htrim]
  constructor
  · rintro ⟨first', hlines', hcount, hfits⟩
    rw [hlines, List.cons.injEq] at hlines'
    obtain ⟨rfl, rfl⟩ := hlines'
    exact ⟨hcount, hfits, rfl⟩
  · rintro ⟨hcount, hfits, rfl⟩
    exact ⟨first, hlines, hcount, hfits⟩

/-- A number of entries is read from a text exactly if the first line spells it and, where that is
so, the entries are read. -/
theorem exists_decode_eq_ok_iff_of_heads (h : Heads header text body)
    (hheader : '\n' ∉ header.toList) {good : Prop}
    (hgood : Framed text count body →
      ((∃ decoded, decode stream entry text = .ok decoded) ↔ good)) :
    (∃ decoded, decode stream entry text = .ok decoded ∧ decoded.entries.length = count) ↔
      Decimal.Spells header.toList count ∧ count < UInt64.size ∧ good := by
  constructor
  · rintro ⟨decoded, hdecode, rfl⟩
    obtain ⟨body', hframe, -⟩ := decode_eq_ok_iff.mp hdecode
    obtain ⟨hspells, hfits, rfl⟩ := (framed_iff_of_heads h hheader).mp hframe
    exact ⟨hspells, hfits, (hgood hframe).mp ⟨decoded, hdecode⟩⟩
  · rintro ⟨hspells, hfits, hall⟩
    have hframe := (framed_iff_of_heads h hheader).mpr ⟨hspells, hfits, rfl⟩
    obtain ⟨decoded, hdecode⟩ := (hgood hframe).mpr hall
    exact ⟨decoded, hdecode, (entries_of_decode hframe hdecode).1⟩

/-- A text whose first line spells no number of 64 bits has no frame. -/
theorem headless_of_heads (h : Heads header text body) (hheader : '\n' ∉ header.toList)
    (hnone : ∀ n : UInt64, ¬ Decimal.Spells header.toList n.toNat) :
    Headless text (.badCount (String.ofList (trim header.toList))) := by
  obtain ⟨first, hlines, htrim⟩ := h.exists_lines_eq hheader
  rw [← htrim]
  refine .bad hlines fun count hcount => Nat.le_of_not_lt fun hfits => ?_
  rw [htrim, Decimal.denotes_trim_iff] at hcount
  exact hnone (.ofNatLT count hfits) (by rwa [UInt64.toNat_ofNatLT])

/-- A text is refused at its first line exactly if that line spells no number of 64 bits, and the
fault quotes the line. -/
theorem decode_eq_error_one_iff_of_heads (h : Heads header text body)
    (hheader : '\n' ∉ header.toList)
    (hentry : ∀ number line fault, entry number line = .error fault →
      ∃ cause, fault = .malformedLine stream number cause) {cause : LineFault} :
    decode stream entry text = .error (.malformedLine stream 1 cause) ↔
      cause = .badCount (String.ofList (trim header.toList)) ∧
        ∀ n : UInt64, ¬ Decimal.Spells header.toList n.toNat := by
  by_cases hspells : ∃ n : UInt64, Decimal.Spells header.toList n.toNat
  · obtain ⟨n, hspells⟩ := hspells
    refine iff_of_false (fun hdecode => ?_) fun hnone => hnone.2 n hspells
    have hframe := (framed_iff_of_heads h hheader).mpr ⟨hspells, n.toNat_lt, rfl⟩
    obtain ⟨i, -, -, hfault⟩ := (decode_eq_error_iff hframe).mp hdecode
    obtain ⟨cause', hcause⟩ := malformedLine_of_entryAt hentry hfault
    -- The lines of the entries come after the first one.
    injection hcause with _ hline
    omega
  · rw [not_exists] at hspells
    rw [decode_of_headless stream entry (headless_of_heads h hheader hspells)]
    simp only [Except.error.injEq, Fault.malformedLine.injEq, true_and]
    exact ⟨fun hcause => ⟨hcause.symm, hspells⟩, fun hcause => hcause.1.symm⟩

end Frame

open Command in
/-- A count, a seed and a length are read from the texts that spell them, and a length is not zero.
All other texts are refused, and quoted without the blanks around them. The first line of a stream
of outcomes or of operations is read as the number that it spells, and then as many entries are read
if they are there; the stream is refused at that line, which is quoted, if it spells no number of 64
bits. Every number of 64 bits is read from its own digits. -/
theorem numbers_read_alike :
    (∀ (text : String) (n : UInt64),
      (readCount text = .ok n ↔ Decimal.Spells text.toList n.toNat) ∧
      (readSeed text = .ok n ↔ Decimal.Spells text.toList n.toNat) ∧
      (readLength text = .ok n ↔ Decimal.Spells text.toList n.toNat ∧ n ≠ 0)) ∧
    (∀ (text : String) (fault : Fault),
      let found := String.ofList (trim text.toList)
      (readCount text = .error fault ↔ fault = .invalidConfiguration (.badCount found) ∧
        ∀ n : UInt64, ¬ Decimal.Spells text.toList n.toNat) ∧
      (readSeed text = .error fault ↔ fault = .invalidConfiguration (.badSeed found) ∧
        ∀ n : UInt64, ¬ Decimal.Spells text.toList n.toNat) ∧
      (readLength text = .error fault ↔ fault = .invalidConfiguration (.badLength found) ∧
        ∀ n : UInt64, n ≠ 0 → ¬ Decimal.Spells text.toList n.toNat)) ∧
    (∀ header text body, Heads header text body → '\n' ∉ header.toList →
      let found := String.ofList (trim header.toList)
      (∀ n, (∃ outcomes, OutcomeStream.decode text = .ok outcomes ∧ outcomes.entries.length = n) ↔
        Decimal.Spells header.toList n ∧ n < UInt64.size ∧ n ≤ body.length) ∧
      (∀ n, (∃ operations, OperationStream.decode text = .ok operations ∧
          operations.entries.length = n) ↔
        Decimal.Spells header.toList n ∧ n < UInt64.size ∧ n ≤ body.length ∧
          ∀ line ∈ body.take n, ∃ operation, Operation.Holds line operation) ∧
      (∀ cause, OutcomeStream.decode text = .error (.malformedLine .outcomes 1 cause) ↔
        cause = .badCount found ∧ ∀ n : UInt64, ¬ Decimal.Spells header.toList n.toNat) ∧
      (∀ cause, OperationStream.decode text = .error (.malformedLine .operations 1 cause) ↔
        cause = .badCount found ∧ ∀ n : UInt64, ¬ Decimal.Spells header.toList n.toNat)) ∧
    (∀ n : UInt64, Decimal.Spells (toString n).toList n.toNat ∧ readCount (toString n) = .ok n ∧
      readSeed (toString n) = .ok n ∧ (n ≠ 0 → readLength (toString n) = .ok n)) := by
  have hdigits : ∀ n : UInt64, Decimal.Spells (toString n).toList n.toNat :=
    fun n => Decimal.spells_write n.toNat
  refine ⟨fun text n => ?_, fun text fault => ?_, fun header text body h hheader => ?_,
    fun n => ?_⟩
  · exact ⟨readNumber_eq_ok_iff, readNumber_eq_ok_iff, readLength_eq_ok_iff⟩
  · exact ⟨readNumber_eq_error_iff, readNumber_eq_error_iff, readLength_eq_error_iff⟩
  · refine ⟨fun n => ?_, fun n => ?_, fun cause => ?_, fun cause => ?_⟩
    · exact Frame.exists_decode_eq_ok_iff_of_heads h hheader
        OutcomeStream.decode_eq_ok_iff_of_framed
    · exact Frame.exists_decode_eq_ok_iff_of_heads h hheader
        OperationStream.exists_decode_eq_ok_iff
    · refine Frame.decode_eq_error_one_iff_of_heads h hheader fun number line fault hentry => ?_
      contradiction
    · refine Frame.decode_eq_error_one_iff_of_heads h hheader fun number line fault hentry => ?_
      obtain ⟨cause, -, hfault⟩ := Operation.decode_eq_error_iff.mp hentry
      exact ⟨cause, hfault⟩
  · exact ⟨hdigits n, readNumber_eq_ok_iff.mpr (hdigits n), readNumber_eq_ok_iff.mpr (hdigits n),
      fun hne => readLength_eq_ok_iff.mpr ⟨hdigits n, hne⟩⟩

/-- A sign and leading zeros in a first line are read, and the least number that does not fit in 64
bits is refused. -/
theorem two_entries_of_signed_header :
    (∃ outcomes, OutcomeStream.decode (" +002\t" ++ "\n" ++ "1 A\n1 B") = .ok outcomes ∧
      outcomes.entries.length = 2) ∧
    (∃ operations, OperationStream.decode (" +002\t" ++ "\n" ++ "1 A\n1 B") = .ok operations ∧
      operations.entries.length = 2) ∧
    OperationStream.decode "18446744073709551616" =
      .error (.malformedLine .operations 1 (.badCount "18446744073709551616")) := by
  have hspells : Decimal.Spells " +002\t".toList 2 :=
    ⟨[' '], ['\t'], ['+'], 2, List.forall_mem_singleton.mpr isBlank_space,
      List.forall_mem_singleton.mpr (by decide), .inr rfl, by decide⟩
  have hlines : lines "1 A\n1 B".toList = ["1 A".toList, "1 B".toList] := by decide
  have hsmall : Heads " +002\t" (" +002\t" ++ "\n" ++ "1 A\n1 B")
      ["1 A".toList, "1 B".toList] := hlines ▸ .followed "1 A\n1 B"
  obtain ⟨houtcomes, hoperations, -, -⟩ :=
    numbers_read_alike.2.2.1 _ _ _ hsmall (by decide)
  have hdigits : "18446744073709551616" = Decimal.write (2 ^ 64) := by decide +kernel
  have hlarge : Heads "18446744073709551616" "18446744073709551616" [] := .alone (by decide)
  obtain ⟨-, -, -, hrefused⟩ := numbers_read_alike.2.2.1 _ _ _ hlarge (by decide)
  refine ⟨(houtcomes 2).mpr ⟨hspells, by decide, Nat.le_refl 2⟩,
    (hoperations 2).mpr ⟨hspells, by decide, Nat.le_refl 2, ?_⟩,
    (hrefused _).mpr ⟨by decide +kernel, fun n hn => ?_⟩⟩
  · show ∀ line ∈ ["1 A".toList, "1 B".toList], _
    rw [List.forall_mem_cons, List.forall_mem_singleton]
    exact ⟨⟨.read "A", .read rfl⟩, ⟨.read "B", .read rfl⟩⟩
  · rw [hdigits] at hn
    have hvalue := hn.unique (Decimal.spells_write (2 ^ 64))
    have hfits := n.toNat_lt
    omega

end StoreTrial
