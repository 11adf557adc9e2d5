import Mathlib.Data.List.Forall2
import StoreTrial.Proofs.Wire.OperationStream

/-!
# The grammar of a stream of operations

`Operation.Holds` is the grammar of a line: it relates the line to the operation on it.
`Operation.Refused` says why a line holds none, with the reason of the first check that fails. A
line is read as the operation that it holds, or refused for that reason
(`Operation.decode_eq_ok_iff_holds`, `Operation.decode_eq_error_iff`). A stream is then read as its
announced lines hold operations, one at each position, and refused for the first position at which
none stands (`OperationStream.decode_eq_grammar`).
-/

namespace StoreTrial

open Text

/-- A text is the tag of no kind exactly when it stands for none. -/
theorem Kind.ofTag?_eq_none_iff {tag : String} :
    ofTag? tag = none ↔ ∀ kind : Kind, kind.tag ≠ tag := by
  rw [Option.eq_none_iff_forall_ne_some]
  exact forall_congr' fun kind => not_congr ofTag?_eq_some_iff

namespace Operation

/-! ## One line -/

/-- The line holds the operation: its fields are a tag, a key and, after the tag of writes, a
value. -/
inductive Holds (line : List Char) : Operation → Prop where
  /-- A read is the tag `1` and a key. -/
  | read {key : String} (hfields : (fields line).map String.ofList = ["1", key]) :
      Holds line (.read key)
  /-- A write is the tag `2`, a key and a value. -/
  | write {key value : String} (hfields : (fields line).map String.ofList = ["2", key, value]) :
      Holds line (.write key value)
  /-- A deletion is the tag `3` and a key. -/
  | delete {key : String} (hfields : (fields line).map String.ofList = ["3", key]) :
      Holds line (.delete key)

/-- The line holds no operation, for the first of the reasons: it has no field, its first field is
no tag, or the tag is followed by more or fewer fields than operations of its kind have. -/
inductive Refused (line : List Char) : LineFault → Prop where
  /-- The line has no field. -/
  | empty (hfields : fields line = []) : Refused line .empty
  /-- The first field is the tag of no kind. -/
  | unknownTag {tag : String} {others : List String}
      (hfields : (fields line).map String.ofList = tag :: others)
      (htag : ∀ kind : Kind, kind.tag ≠ tag) : Refused line (.unknownTag tag)
  /-- The tag of a kind is followed by a wrong number of fields. -/
  | wrongFieldCount {kind : Kind} {others : List String}
      (hfields : (fields line).map String.ofList = kind.tag :: others)
      (hcount : others.length + 1 ≠ kind.fieldCount) :
      Refused line (.wrongFieldCount kind others.length)

variable {number : Nat} {line : List Char}

/-- The fields of a line that holds an operation are the tag of its kind and its texts. -/
theorem holds_iff {operation : Operation} :
    Holds line operation ↔ (fields line).map String.ofList =
      operation.kind.tag :: operation.texts.map Prod.snd := by
  constructor
  · intro h
    cases h with
    | read hfields => exact hfields
    | write hfields => exact hfields
    | delete hfields => exact hfields
  · intro h
    cases operation with
    | read key => exact .read h
    | write key value => exact .write h
    | delete key => exact .delete h

/-- A line is read as the operation that it holds. -/
theorem decode_eq_ok_iff_holds {operation : Operation} :
    decode number line = .ok operation ↔ Holds line operation := by
  rw [decode_eq_ok_iff, holds_iff]

/-- A line holds at most one operation. -/
theorem Holds.unique {operation operation' : Operation} (h : Holds line operation)
    (h' : Holds line operation') : operation = operation' := by
  have hok : decode 0 line = .ok operation := decode_eq_ok_iff_holds.mpr h
  rw [decode_eq_ok_iff_holds.mpr h'] at hok
  exact (Except.ok.inj hok).symm

/-- A carriage return at the end of a line makes no difference to what the line holds. -/
theorem holds_dropReturn_iff {operation : Operation} :
    Holds (dropReturn line) operation ↔ Holds line operation := by
  rw [holds_iff, holds_iff, fields_dropReturn]

/-- The tag of a kind and the right number of fields after it make an operation. -/
theorem exists_holds_of_fieldCount {kind : Kind} {others : List String}
    (hfields : (fields line).map String.ofList = kind.tag :: others)
    (hcount : others.length + 1 = kind.fieldCount) : ∃ operation, Holds line operation := by
  cases kind with
  | read =>
    obtain ⟨key, rfl⟩ := List.length_eq_one_iff.mp (Nat.succ.inj hcount)
    exact ⟨_, .read hfields⟩
  | write =>
    have hpair := List.eq_getElem_of_length_eq_two others (Nat.succ.inj hcount)
    exact ⟨_, .write (hfields.trans (congrArg _ hpair))⟩
  | delete =>
    obtain ⟨key, rfl⟩ := List.length_eq_one_iff.mp (Nat.succ.inj hcount)
    exact ⟨_, .delete hfields⟩

/-- A line holds an operation, or there is a reason why it holds none. -/
theorem holds_or_refused (line : List Char) :
    (∃ operation, Holds line operation) ∨ ∃ cause, Refused line cause := by
  cases hfields : (fields line).map String.ofList with
  | nil => exact .inr ⟨_, .empty (List.map_eq_nil_iff.mp hfields)⟩
  | cons tag others =>
    by_cases htag : ∃ kind : Kind, kind.tag = tag
    · obtain ⟨kind, rfl⟩ := htag
      by_cases hcount : others.length + 1 = kind.fieldCount
      · exact .inl (exists_holds_of_fieldCount hfields hcount)
      · exact .inr ⟨_, .wrongFieldCount hfields hcount⟩
    · exact .inr ⟨_, .unknownTag hfields (not_exists.mp htag)⟩

/-- A line is refused for the reason that there is. -/
theorem decode_of_refused {cause : LineFault} (h : Refused line cause) :
    decode number line = .error (.malformedLine .operations number cause) := by
  unfold decode
  cases h with
  | empty hfields =>
    rw [hfields]
    rfl
  | unknownTag hfields htag =>
    rw [hfields]
    simp only [Kind.ofTag?_eq_none_iff.mpr htag]
    rfl
  | wrongFieldCount hfields hcount =>
    rename_i kind others
    rw [hfields]
    simp only [Kind.ofTag?_eq_some_iff.mpr (Eq.refl kind.tag)]
    -- An operation is read only from the number of fields that its kind has.
    split
    · contradiction
    · rename_i hkind
      cases hkind
      exact absurd rfl hcount
    · rename_i hkind
      cases hkind
      exact absurd rfl hcount
    · rename_i hkind
      cases hkind
      exact absurd rfl hcount
    · rename_i hkind _ _ _
      cases hkind
      rfl

/-- A line is refused exactly for the reason that there is. -/
theorem decode_eq_error_iff {fault : Fault} :
    decode number line = .error fault ↔
      ∃ cause, Refused line cause ∧ fault = .malformedLine .operations number cause := by
  constructor
  · intro h
    rcases holds_or_refused line with ⟨operation, hholds⟩ | ⟨cause, hcause⟩
    · rw [decode_eq_ok_iff_holds.mpr hholds] at h
      contradiction
    · rw [decode_of_refused hcause] at h
      exact ⟨cause, hcause, (Except.error.inj h).symm⟩
  · rintro ⟨cause, hcause, rfl⟩
    exact decode_of_refused hcause

end Operation

/-! ## The whole stream -/

namespace OperationStream

open Operation

/-- Lines are read as operations exactly if each holds the operation at its position, whatever the
numbers of the lines are. -/
theorem map_decode_eq_iff {ls : List (List Char)} {first : Nat} {operations : List Operation} :
    (ls.zipIdx first).map (fun line => Operation.decode line.2 line.1) = operations.map .ok ↔
      List.Forall₂ Holds ls operations := by
  induction ls generalizing first operations with
  | nil => cases operations <;> simp
  | cons line ls ih =>
    cases operations with
    | nil => simp
    | cons operation operations =>
      rw [List.zipIdx_cons, List.map_cons, List.map_cons, List.cons.injEq, ih,
        decode_eq_ok_iff_holds, List.forall₂_cons]

/-- A stream is read as operations exactly if its text has a frame that announces as many, and the
announced lines hold these operations in order. -/
theorem decode_eq_ok_iff_forall₂ {text : String} {decoded : Decoded Operation} :
    decode text = .ok decoded ↔ ∃ body, Frame.Framed text decoded.entries.length body ∧
      List.Forall₂ Holds (body.take decoded.entries.length) decoded.entries ∧
      decoded.extra = Frame.extraLines decoded.entries.length body := by
  unfold decode
  simp only [Frame.decode_eq_ok_iff, map_decode_eq_iff]

/-- The operation stands at a position after the first line. -/
def Stands (body : List (List Char)) (i : Nat) (operation : Operation) : Prop :=
  ∃ line, body[i]? = some line ∧ Holds line operation

/-- No operation stands at a position after the first line, for the reason: the line is missing from
a stream that announces `count` operations, or it is refused. -/
inductive Fails (count : Nat) (body : List (List Char)) (i : Nat) : LineFault → Prop where
  /-- The stream ends before the position. -/
  | truncated (hend : body.length ≤ i) : Fails count body i (.truncated count i)
  /-- The line at the position is refused. -/
  | refused {line : List Char} {cause : LineFault} (hline : body[i]? = some line)
      (hcause : Refused line cause) : Fails count body i cause

variable {text : String} {count : Nat} {body : List (List Char)} {i : Nat}

/-- What is read at a position is the operation that stands there. -/
theorem entryAt_eq_ok_iff {operation : Operation} :
    Frame.entryAt .operations Operation.decode count body i = .ok operation ↔
      Stands body i operation := by
  unfold Frame.entryAt Stands
  cases body[i]? with
  | none => simp
  | some line => simp [decode_eq_ok_iff_holds]

/-- The fault of a position is the reason why no operation stands there, with the number of the
line. -/
theorem entryAt_eq_error_iff {fault : Fault} :
    Frame.entryAt .operations Operation.decode count body i = .error fault ↔
      ∃ cause, Fails count body i cause ∧ fault = .malformedLine .operations (i + 2) cause := by
  unfold Frame.entryAt
  cases hline : body[i]? with
  | none =>
    constructor
    · intro h
      exact ⟨_, .truncated (List.getElem?_eq_none_iff.mp hline), (Except.error.inj h).symm⟩
    · rintro ⟨cause, hfails, rfl⟩
      cases hfails with
      | truncated hend => rfl
      | refused hpresent hcause =>
        rw [hline] at hpresent
        contradiction
  | some line =>
    rw [decode_eq_error_iff]
    constructor
    · rintro ⟨cause, hcause, hfault⟩
      exact ⟨cause, .refused hline hcause, hfault⟩
    · rintro ⟨cause, hfails, hfault⟩
      cases hfails with
      | truncated hend =>
        rw [List.getElem?_eq_none hend] at hline
        contradiction
      | refused hpresent hcause =>
        rw [hline, Option.some.injEq] at hpresent
        exact ⟨cause, hpresent ▸ hcause, hfault⟩

/-- The reason of a position is that of a stream that ends exactly if its line is missing. -/
theorem Fails.eq_truncated_iff {cause : LineFault} (h : Fails count body i cause) :
    cause = .truncated count i ↔ body.length ≤ i := by
  cases h with
  | truncated hend => exact ⟨fun _ => hend, fun _ => rfl⟩
  | refused hline hcause =>
    have hlt : i < body.length := (List.getElem?_eq_some_iff.mp hline).1
    constructor
    · rintro rfl
      cases hcause
    · intro hend
      exact absurd hlt (Nat.not_lt.mpr hend)

/-- No operation stands at a position that fails. -/
theorem Fails.not_stands {cause : LineFault} (h : Fails count body i cause) :
    ¬ ∃ operation, Stands body i operation := by
  rintro ⟨operation, hstands⟩
  have hok : Frame.entryAt .operations Operation.decode count body i = .ok operation :=
    entryAt_eq_ok_iff.mpr hstands
  rw [entryAt_eq_error_iff.mpr ⟨cause, h, rfl⟩] at hok
  contradiction

/-- A stream of operations that is refused is refused for one of its lines. -/
theorem malformedLine_of_decode {fault : Fault} (h : decode text = .error fault) :
    ∃ number cause, fault = .malformedLine .operations number cause := by
  refine Frame.malformedLine_of_decode (fun number line fault hentry => ?_) h
  obtain ⟨cause, -, hfault⟩ := decode_eq_error_iff.mp hentry
  exact ⟨cause, hfault⟩

/-- Lines with operations are there. -/
theorem le_length_of_stands (h : ∀ j < i, ∃ operation, Stands body j operation) :
    i ≤ body.length := by
  refine Nat.le_of_not_lt fun hlt => ?_
  obtain ⟨operation, line, hline, -⟩ := h body.length hlt
  rw [List.getElem?_eq_none (Nat.le_refl _)] at hline
  contradiction

/-- Operations stand at all announced positions exactly when as many lines are there and each of
them holds one. -/
theorem forall_stands_iff :
    (∀ i < count, ∃ operation, Stands body i operation) ↔
      count ≤ body.length ∧ ∀ line ∈ body.take count, ∃ operation, Holds line operation := by
  constructor
  · intro h
    refine ⟨le_length_of_stands h, fun line hline => ?_⟩
    obtain ⟨i, hi, rfl⟩ := List.mem_take_iff_getElem.mp hline
    obtain ⟨operation, line, hline, hholds⟩ := h i (by omega)
    rw [List.getElem?_eq_some_iff] at hline
    obtain ⟨_, rfl⟩ := hline
    exact ⟨operation, hholds⟩
  · rintro ⟨hcount, h⟩ i hi
    have hlt : i < body.length := Nat.lt_of_lt_of_le hi hcount
    obtain ⟨operation, hholds⟩ :=
      h body[i] (List.mem_take_iff_getElem.mpr ⟨i, by omega, rfl⟩)
    exact ⟨operation, body[i], List.getElem?_eq_getElem hlt, hholds⟩

/-- A stream is accepted exactly if its announced lines are there and each holds an operation. -/
theorem exists_decode_eq_ok_iff (h : Frame.Framed text count body) :
    (∃ decoded, decode text = .ok decoded) ↔
      count ≤ body.length ∧ ∀ line ∈ body.take count, ∃ operation, Holds line operation := by
  unfold decode
  rw [Frame.exists_decode_eq_ok_iff h, ← forall_stands_iff]
  simp only [entryAt_eq_ok_iff]

/-- A stream is refused with the reason of the first announced position at which no operation
stands. -/
theorem decode_eq_error_iff_fails (h : Frame.Framed text count body) {fault : Fault} :
    decode text = .error fault ↔ ∃ i < count, ∃ cause,
      fault = .malformedLine .operations (i + 2) cause ∧
      (∀ j < i, ∃ operation, Stands body j operation) ∧ Fails count body i cause := by
  unfold decode
  rw [Frame.decode_eq_error_iff h]
  simp only [entryAt_eq_ok_iff, entryAt_eq_error_iff]
  constructor
  · rintro ⟨i, hi, hbefore, cause, hfails, hfault⟩
    exact ⟨i, hi, cause, hfault, hbefore, hfails⟩
  · rintro ⟨i, hi, cause, hfault, hbefore, hfails⟩
    exact ⟨i, hi, hbefore, cause, hfails, hfault⟩

/-- A stream is refused at its first line exactly if it has no frame. -/
theorem decode_eq_error_one_iff :
    (∃ cause, decode text = .error (.malformedLine .operations 1 cause)) ↔
      ∀ count body, ¬ Frame.Framed text count body := by
  constructor
  · rintro ⟨cause, hfault⟩ count body hframe
    -- Behind a frame, the faults have the numbers of later lines.
    obtain ⟨i, -, _, hnumber, -⟩ := (decode_eq_error_iff_fails hframe).mp hfault
    rw [Fault.malformedLine.injEq] at hnumber
    omega
  · exact Frame.decode_of_not_framed .operations Operation.decode

/-- The number in the fault of a stream is at most one more than the number of its lines. -/
theorem number_le_of_decode {number : Nat} {cause : LineFault}
    (h : decode text = .error (.malformedLine .operations number cause)) :
    number ≤ (lines text.toList).length + 1 := by
  by_cases hframe : ∃ count body, Frame.Framed text count body
  · obtain ⟨count, body, hframe⟩ := hframe
    obtain ⟨i, -, _, hnumber, hbefore, -⟩ := (decode_eq_error_iff_fails hframe).mp h
    have hi : i ≤ body.length := le_length_of_stands hbefore
    obtain ⟨header, hlines, -⟩ := hframe
    rw [Fault.malformedLine.injEq] at hnumber
    rw [hlines, List.length_cons]
    omega
  · simp only [not_exists] at hframe
    obtain ⟨cause', hfault⟩ := Frame.decode_of_not_framed .operations Operation.decode hframe
    rw [decode, hfault, Except.error.injEq, Fault.malformedLine.injEq] at h
    omega

/-- A stream of operations is read exactly by its grammar. It is refused at its first line if and
only if it has none, or its first line does not denote a number that fits in 64 bits. With such a
number, it is accepted if and only if at least that many lines follow and each of that many holds an
operation, and then it is read as exactly these operations in order. Otherwise it is refused at the
first announced position at which no operation stands, with the number of the line there: as
truncated, with the number of the operations before, if and only if the line is missing, and else
for the reason of the line. However many operations the first line announces, the number in a fault
is at most one more than the number of lines, which is at most the number of characters. -/
theorem decode_eq_grammar (text : String) :
    ((∃ cause, decode text = .error (.malformedLine .operations 1 cause)) ↔
      lines text.toList = [] ∨ ∃ header body, lines text.toList = header :: body ∧
        ∀ count, Decimal.Denotes (trim header) count → UInt64.size ≤ count) ∧
    (∀ header body count, lines text.toList = header :: body →
      Decimal.Denotes (trim header) count → count < UInt64.size →
      ((∃ decoded, decode text = .ok decoded) ↔
        count ≤ body.length ∧ ∀ line ∈ body.take count, ∃ operation, Holds line operation) ∧
      (∀ decoded, decode text = .ok decoded → decoded.entries.length = count ∧
        ∀ i < count, ∃ operation, decoded.entries[i]? = some operation ∧ Stands body i operation) ∧
      (∀ fault, decode text = .error fault ↔ ∃ i < count, ∃ cause,
        fault = .malformedLine .operations (i + 2) cause ∧
        (∀ j < i, ∃ operation, Stands body j operation) ∧
        (¬ ∃ operation, Stands body i operation) ∧ Fails count body i cause ∧
        (cause = .truncated count i ↔ body.length ≤ i))) ∧
    (∀ number cause, decode text = .error (.malformedLine .operations number cause) →
      number ≤ (lines text.toList).length + 1) ∧
    (lines text.toList).length ≤ text.length := by
  refine ⟨?_, ?_, fun number cause => number_le_of_decode, ?_⟩
  · rw [decode_eq_error_one_iff]
    constructor
    · intro hnone
      cases hlines : lines text.toList with
      | nil => exact .inl rfl
      | cons header body =>
        refine .inr ⟨header, body, rfl, fun count hdenotes => Nat.le_of_not_lt fun hfits => ?_⟩
        exact hnone count body ⟨header, hlines, hdenotes, hfits⟩
    · rintro hbad count body ⟨header, hlines, hdenotes, hfits⟩
      rcases hbad with hempty | ⟨header', body', hlines', hbad⟩
      · rw [hempty] at hlines
        contradiction
      · rw [hlines', List.cons.injEq] at hlines
        exact absurd hfits (Nat.not_lt.mpr (hbad count (hlines.1 ▸ hdenotes)))
  · intro header body count hlines hdenotes hfits
    have hframe : Frame.Framed text count body := ⟨header, hlines, hdenotes, hfits⟩
    refine ⟨?_, fun decoded hdecode => ?_, fun fault => ?_⟩
    · unfold decode
      rw [Frame.exists_decode_eq_ok_iff hframe, ← forall_stands_iff]
      simp only [entryAt_eq_ok_iff]
    · obtain ⟨hlength, hentries⟩ := Frame.entries_of_decode hframe hdecode
      simp only [entryAt_eq_ok_iff] at hentries
      exact ⟨hlength, hentries⟩
    · rw [decode_eq_error_iff_fails hframe]
      constructor
      · rintro ⟨i, hi, cause, hfault, hbefore, hfails⟩
        exact ⟨i, hi, cause, hfault, hbefore, hfails.not_stands, hfails, hfails.eq_truncated_iff⟩
      · rintro ⟨i, hi, cause, hfault, hbefore, -, hfails, -⟩
        exact ⟨i, hi, cause, hfault, hbefore, hfails⟩
  · rw [← String.length_toList]
    exact length_lines_le text.toList

/-- A stream that announces the most operations there can be is refused where its lines end. -/
example : decode "18446744073709551615\n1 A\n" =
    .error (.malformedLine .operations 3 (.truncated 18446744073709551615 1)) := rfl

end OperationStream

end StoreTrial
