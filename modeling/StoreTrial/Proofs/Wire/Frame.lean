import StoreTrial.Proofs.FirstFault
import StoreTrial.Proofs.Text.Decimal
import StoreTrial.Proofs.Text.Lines
import StoreTrial.Wire.Frame

/-!
# What a frame holds

`Framed` says what the frame of a text is: how many entries its first line announces, and which
lines follow. `Headless` says why a text has none. A stream is accepted exactly when its text has a
frame and each announced line is there and is accepted as an entry (`decode_eq_ok_iff`), and
otherwise it is refused for the first announced position at which the line is missing or refused
(`decode_eq_error_iff`). A text that was written as a frame has the frame that it was written as
(`framed_encode`), and it determines the lines of its entries if none of them has a line feed in it
(`encode_inj`).
-/

namespace StoreTrial.Frame

open Text

/-- The first line of the text announces `count` entries, and `body` are the lines after it. -/
def Framed (text : String) (count : Nat) (body : List (List Char)) : Prop :=
  ∃ header, lines text.toList = header :: body ∧ Decimal.Denotes (trim header) count ∧
    count < UInt64.size

/-- The first line of the text announces nothing, for the reason: there is no line at all, or the
first one denotes no number that fits in 64 bits. -/
inductive Headless (text : String) : LineFault → Prop where
  /-- The text has no line. -/
  | missing (hlines : lines text.toList = []) : Headless text .missingCount
  /-- The first line is no count. -/
  | bad {header : List Char} {body : List (List Char)} (hlines : lines text.toList = header :: body)
      (hcount : ∀ count, Decimal.Denotes (trim header) count → UInt64.size ≤ count) :
      Headless text (.badCount (String.ofList (trim header)))

/-- A text has a frame, or there is a reason why it has none. -/
theorem framed_or_headless (text : String) :
    (∃ count body, Framed text count body) ∨ ∃ cause, Headless text cause := by
  cases hlines : lines text.toList with
  | nil => exact .inr ⟨_, .missing hlines⟩
  | cons header body =>
    by_cases hcount : ∃ count, Decimal.Denotes (trim header) count ∧ count < UInt64.size
    · obtain ⟨count, hcount⟩ := hcount
      exact .inl ⟨count, body, header, hlines, hcount⟩
    · simp only [not_exists, not_and, Nat.not_lt] at hcount
      exact .inr ⟨_, .bad hlines hcount⟩

/-- The reason why a text has no frame is worded alike for both streams. -/
theorem Headless.reason_eq {text : String} {cause : LineFault} (h : Headless text cause)
    (stream stream' : Stream) : cause.reason stream = cause.reason stream' := by
  cases h <;> rfl

/-- No line of a frame has a line feed in it. -/
theorem Framed.lineFeed_notMem {text : String} {count : Nat} {body : List (List Char)}
    (h : Framed text count body) {line : List Char} (hline : line ∈ body) : '\n' ∉ line := by
  obtain ⟨header, hlines, -⟩ := h
  have hmem : line ∈ lines text.toList := by
    rw [hlines]
    exact List.mem_cons_of_mem _ hline
  exact lineFeed_notMem_of_mem_lines hmem

/-- The frame of a text whose first line is the digits of a number announces that number. -/
theorem Framed.eq_of_lines {text : String} {count n : Nat} {body others : List (List Char)}
    (h : Framed text count body) (hlines : lines text.toList = Nat.toDigits 10 n :: others) :
    count = n ∧ body = others := by
  obtain ⟨header, hheader, hcount, -⟩ := h
  rw [hlines, List.cons.injEq] at hheader
  obtain ⟨rfl, rfl⟩ := hheader
  rw [trim_of_not_blank (unbroken_toDigits n).2] at hcount
  exact ⟨hcount.unique (Decimal.denotes_toDigits n), rfl⟩

/-- A first line is read as the number that it denotes after trimming. -/
theorem readCount_eq_ok_iff {stream : Stream} {header : List Char} {count : Nat} :
    readCount stream header = .ok count ↔
      Decimal.Denotes (trim header) count ∧ count < UInt64.size := by
  rw [← Decimal.read?_map_toNat_eq_some_iff]
  unfold readCount
  cases Decimal.read? (trim header) <;> simp

/-- What is read from lines alone is the same whatever their numbers are. -/
theorem map_fst_zipIdx {α β : Type} (read : α → β) (ls : List α) (first : Nat) :
    (ls.zipIdx first).map (fun line => read line.1) = ls.map read := by
  calc (ls.zipIdx first).map (fun line => read line.1)
      = ((ls.zipIdx first).map Prod.fst).map read := List.map_map.symm
    _ = ls.map read := by rw [List.zipIdx_map_fst]

/-- The number of lines that are not blank among those after the announced entries. -/
def extraLines (count : Nat) (body : List (List Char)) : Nat :=
  (body.drop count).countP fun line => !line.all isBlank

/-- No line is left over if no more lines are there than were announced. -/
theorem extraLines_of_length_le {count : Nat} {body : List (List Char)} (h : body.length ≤ count) :
    extraLines count body = 0 := by
  unfold extraLines
  rw [List.drop_of_length_le h, List.countP_nil]

section

variable {α : Type} {stream : Stream} {entry : Nat → List Char → Except Fault α} {text : String}
  {count : Nat} {body : List (List Char)}

/-- A text with a frame is read entry by entry, and refused if lines are missing. -/
theorem decode_of_framed (h : Framed text count body) :
    decode stream entry text =
      (((body.take count).zipIdx 2).mapM fun line => entry line.2 line.1) >>= fun entries =>
        if entries.length < count then
          .error (.malformedLine stream (entries.length + 2) (.truncated count entries.length))
        else .ok ⟨entries, extraLines count body⟩ := by
  obtain ⟨header, hlines, hcount⟩ := h
  unfold decode
  rw [hlines]
  simp only [readCount_eq_ok_iff.mpr hcount]
  rfl

/-- A text whose first line announces nothing is refused for that line, whatever its entries are. -/
theorem decode_of_headless (stream : Stream) (entry : Nat → List Char → Except Fault α)
    {cause : LineFault} (h : Headless text cause) :
    decode stream entry text = .error (.malformedLine stream 1 cause) := by
  unfold decode
  cases h with
  | missing hlines =>
    rw [hlines]
  | bad hlines hcount =>
    rename_i header body
    rw [hlines]
    have hnone : Decimal.read? (trim header) = none := by
      rw [Option.eq_none_iff_forall_ne_some]
      intro word hread
      have hlarge := hcount word.toNat (Decimal.read?_eq_some_iff.mp hread)
      exact absurd word.toNat_lt (Nat.not_lt.mpr hlarge)
    simp only [readCount, hnone]
    rfl

/-- A text without a frame is refused at its first line. -/
theorem decode_of_not_framed (stream : Stream) (entry : Nat → List Char → Except Fault α)
    (h : ∀ count body, ¬ Framed text count body) :
    ∃ cause, decode stream entry text = .error (.malformedLine stream 1 cause) := by
  rcases framed_or_headless text with ⟨count, body, hframe⟩ | ⟨cause, hcause⟩
  · exact absurd hframe (h count body)
  · exact ⟨cause, decode_of_headless stream entry hcause⟩

/-- A stream is accepted with its entries exactly when its text has a frame that announces as many,
and each announced line is accepted as its entry. -/
theorem decode_eq_ok_iff {decoded : Decoded α} :
    decode stream entry text = .ok decoded ↔ ∃ body, Framed text decoded.entries.length body ∧
      ((body.take decoded.entries.length).zipIdx 2).map (fun line => entry line.2 line.1) =
        decoded.entries.map .ok ∧
      decoded.extra = extraLines decoded.entries.length body := by
  constructor
  · intro hdecode
    by_cases hframe : ∃ count body, Framed text count body
    · obtain ⟨count, body, hframe⟩ := hframe
      rw [decode_of_framed hframe] at hdecode
      cases hentries : ((body.take count).zipIdx 2).mapM fun line => entry line.2 line.1 with
      | error fault =>
        rw [hentries] at hdecode
        contradiction
      | ok entries =>
        have hmap := mapM_eq_ok_iff.mp hentries
        have hlength := congrArg List.length hmap
        simp only [List.length_map, List.length_zipIdx, List.length_take] at hlength
        simp only [hentries, bind, Except.bind] at hdecode
        split at hdecode
        · contradiction
        · cases hdecode
          -- No line is missing, so there are as many entries as were announced.
          obtain rfl : entries.length = count := by omega
          exact ⟨body, hframe, hmap, rfl⟩
    · simp only [not_exists] at hframe
      obtain ⟨cause, hcause⟩ := decode_of_not_framed stream entry hframe
      rw [hcause] at hdecode
      contradiction
  · rintro ⟨body, hframe, hmap, hextra⟩
    rw [decode_of_framed hframe, mapM_eq_ok_iff.mpr hmap]
    simp only [bind, Except.bind]
    rw [if_neg (Nat.lt_irrefl _), ← hextra]

/-- Only the lines of a text count. -/
theorem decode_congr {text' : String} (h : lines text.toList = lines text'.toList) :
    decode stream entry text = decode stream entry text' := by
  unfold decode
  rw [h]

/-- The number of entries of a stream that was read fits in 64 bits. -/
theorem length_lt_of_decode {decoded : Decoded α}
    (h : decode stream entry text = .ok decoded) : decoded.entries.length < UInt64.size := by
  obtain ⟨body, ⟨header, -, -, hlt⟩, -⟩ := decode_eq_ok_iff.mp h
  exact hlt

/-- What is read at a position after the first line: the entry on that line, or the fault that the
line is missing. -/
def entryAt (stream : Stream) (entry : Nat → List Char → Except Fault α) (count : Nat)
    (body : List (List Char)) (i : Nat) : Except Fault α :=
  match body[i]? with
  | some line => entry (i + 2) line
  | none => .error (.malformedLine stream (i + 2) (.truncated count i))

/-- The announced lines that are there are read at their positions. -/
theorem mapM_zipIdx_eq (stream : Stream) (entry : Nat → List Char → Except Fault α) (count : Nat)
    (body : List (List Char)) :
    (((body.take count).zipIdx 2).mapM fun line => entry line.2 line.1) =
      (List.range (min count body.length)).mapM (entryAt stream entry count body) := by
  have hmap : ((body.take count).zipIdx 2).map (fun line => entry line.2 line.1) =
      (List.range (min count body.length)).map (entryAt stream entry count body) := by
    apply List.ext_getElem?
    intro i
    rw [List.getElem?_map, List.getElem?_map, List.getElem?_zipIdx]
    by_cases hi : i < min count body.length
    · have hbody : i < body.length := by omega
      rw [List.getElem?_range hi, List.getElem?_take_of_lt (by omega),
        List.getElem?_eq_getElem hbody]
      simp only [Option.map_some, entryAt, List.getElem?_eq_getElem hbody, Nat.add_comm]
    · have htake : (body.take count).length ≤ i := by
        rw [List.length_take]
        omega
      have hrange : (List.range (min count body.length)).length ≤ i := by
        rw [List.length_range]
        omega
      rw [List.getElem?_eq_none htake, List.getElem?_eq_none hrange]
      rfl
  have hid : ∀ {β : Type} (f : β → Except Fault α) (l : List β), l.mapM f = (l.map f).mapM id := by
    intro β f l
    rw [List.mapM_map]
    rfl
  rw [hid, hmap, ← hid]

/-- A text with a frame is read position by position, and the first one that is refused decides. -/
theorem decode_eq_mapM (h : Framed text count body) :
    decode stream entry text =
      ((List.range count).mapM (entryAt stream entry count body)).map fun entries =>
        ⟨entries, extraLines count body⟩ := by
  rw [decode_of_framed h, mapM_zipIdx_eq stream]
  cases hentries : (List.range (min count body.length)).mapM (entryAt stream entry count body) with
  | error fault =>
    obtain ⟨i, hi, hbefore, hfault⟩ := mapM_range_eq_error_iff.mp hentries
    rw [mapM_range_eq_error_iff.mpr ⟨i, by omega, hbefore, hfault⟩]
    rfl
  | ok entries =>
    obtain ⟨hlength, hall⟩ := mapM_range_eq_ok_iff.mp hentries
    simp only [bind, Except.bind]
    by_cases hcount : count ≤ body.length
    · rw [Nat.min_eq_left hcount] at hentries hlength
      rw [hentries, if_neg (by omega)]
      rfl
    · -- The lines end before the announced entries do, and the first missing one decides.
      have hmissing : entryAt stream entry count body body.length =
          .error (.malformedLine stream (body.length + 2) (.truncated count body.length)) := by
        rw [entryAt, List.getElem?_eq_none (Nat.le_refl _)]
      have hbefore : ∀ j < body.length, ∃ a, entryAt stream entry count body j = .ok a := by
        intro j hj
        obtain ⟨a, -, ha⟩ := hall j (by omega)
        exact ⟨a, ha⟩
      have hend : entries.length = body.length := by omega
      rw [mapM_range_eq_error_iff.mpr ⟨body.length, by omega, hbefore, hmissing⟩,
        if_pos (by omega), hend]
      rfl

/-- A text with a frame is accepted exactly when an entry is read at each announced position. -/
theorem exists_decode_eq_ok_iff (h : Framed text count body) :
    (∃ decoded, decode stream entry text = .ok decoded) ↔
      ∀ i < count, ∃ a, entryAt stream entry count body i = .ok a := by
  have hrange : (∃ entries, (List.range count).mapM (entryAt stream entry count body) =
      .ok entries) ↔ ∀ i < count, ∃ a, entryAt stream entry count body i = .ok a := by
    rw [exists_mapM_eq_ok_iff]
    simp only [List.mem_range]
  rw [decode_eq_mapM h, ← hrange]
  cases (List.range count).mapM (entryAt stream entry count body) <;> simp [Except.map]

/-- The entries of a text with a frame are those that are read at the announced positions. -/
theorem entries_of_decode (h : Framed text count body) {decoded : Decoded α}
    (hdecode : decode stream entry text = .ok decoded) :
    decoded.entries.length = count ∧
      ∀ i < count, ∃ a, decoded.entries[i]? = some a ∧
        entryAt stream entry count body i = .ok a := by
  rw [decode_eq_mapM h] at hdecode
  cases hentries : (List.range count).mapM (entryAt stream entry count body) with
  | error fault =>
    rw [hentries] at hdecode
    contradiction
  | ok entries =>
    rw [hentries] at hdecode
    cases hdecode
    exact mapM_range_eq_ok_iff.mp hentries

/-- A text with a frame is refused exactly with the fault of the first announced position at which
no entry is read. -/
theorem decode_eq_error_iff (h : Framed text count body) {fault : Fault} :
    decode stream entry text = .error fault ↔ ∃ i < count,
      (∀ j < i, ∃ a, entryAt stream entry count body j = .ok a) ∧
        entryAt stream entry count body i = .error fault := by
  rw [decode_eq_mapM h, ← mapM_range_eq_error_iff]
  cases (List.range count).mapM (entryAt stream entry count body) <;> simp [Except.map]

/-- A position is refused for its line, if an entry is. -/
theorem malformedLine_of_entryAt
    (hentry : ∀ number line fault, entry number line = .error fault →
      ∃ cause, fault = .malformedLine stream number cause)
    {i : Nat} {fault : Fault} (h : entryAt stream entry count body i = .error fault) :
    ∃ cause, fault = .malformedLine stream (i + 2) cause := by
  unfold entryAt at h
  split at h
  · exact hentry _ _ _ h
  · exact ⟨.truncated count i, (Except.error.inj h).symm⟩

/-- A stream is refused for one of its lines, if an entry is refused for its line. -/
theorem malformedLine_of_decode
    (hentry : ∀ number line fault, entry number line = .error fault →
      ∃ cause, fault = .malformedLine stream number cause)
    {fault : Fault} (h : decode stream entry text = .error fault) :
    ∃ number cause, fault = .malformedLine stream number cause := by
  by_cases hframe : ∃ count body, Framed text count body
  · obtain ⟨count, body, hframe⟩ := hframe
    obtain ⟨i, -, -, hfault⟩ := (decode_eq_error_iff hframe).mp h
    exact ⟨i + 2, malformedLine_of_entryAt hentry hfault⟩
  · simp only [not_exists] at hframe
    obtain ⟨cause, hcause⟩ := decode_of_not_framed stream entry hframe
    exact ⟨1, cause, Except.error.inj (h.symm.trans hcause)⟩

end

/-- The lines of the frame whose entries have the lines `entries`. -/
def rows (entries : List String) : List (List Char) :=
  Nat.toDigits 10 entries.length :: entries.map String.toList

/-- The text of a frame is made of its lines. -/
theorem toList_encode (entries : List String) :
    (encode entries).toList = joinLines (rows entries) := by
  have hjoin : ∀ ls : List String,
      (String.join (ls.map (· ++ "\n"))).toList = joinLines (ls.map String.toList) := by
    intro ls
    simp [String.toList_join, joinLines, List.flatMap_map]
  unfold encode rows
  rw [hjoin, List.map_cons, Nat.toList_repr]

/-- If the lines of the entries have no line feeds in them, no line of the frame has. -/
theorem lineFeed_notMem_of_mem_rows {entries : List String}
    (h : ∀ entry ∈ entries, '\n' ∉ entry.toList) : ∀ line ∈ rows entries, '\n' ∉ line := by
  unfold rows
  rw [List.forall_mem_cons, List.forall_mem_map]
  exact ⟨(unbroken_toDigits _).lineFeed_notMem, h⟩

/-- The rows of a frame with unbroken entries are unbroken. -/
theorem unbroken_of_mem_rows {entries : List String}
    (h : ∀ entry ∈ entries, Unbroken entry.toList) : ∀ row ∈ rows entries, Unbroken row := by
  unfold rows
  rw [List.forall_mem_cons, List.forall_mem_map]
  exact ⟨unbroken_toDigits _, h⟩

/-- The lines of a frame with unbroken entries are its rows. -/
theorem lines_encode_of_unbroken {entries : List String}
    (h : ∀ entry ∈ entries, Unbroken entry.toList) :
    lines (encode entries).toList = rows entries := by
  have hrows := unbroken_of_mem_rows h
  have hreturn : (rows entries).map dropReturn = rows entries :=
    (List.map_congr_left fun row hrow => dropReturn_of_unbroken (hrows row hrow)).trans
      (List.map_id _)
  rw [toList_encode, lines_joinLines fun row hrow => (hrows row hrow).lineFeed_notMem, hreturn]

/-- A text that was written as a frame has that frame. Only the carriage returns at the ends of its
lines are lost. -/
theorem framed_encode {entries : List String} (h : ∀ entry ∈ entries, '\n' ∉ entry.toList)
    (hlength : entries.length < UInt64.size) :
    Framed (encode entries) entries.length (entries.map fun entry => dropReturn entry.toList) := by
  have hdigits : Unbroken (Nat.toDigits 10 entries.length) := unbroken_toDigits _
  refine ⟨Nat.toDigits 10 entries.length, ?_, ?_, hlength⟩
  · rw [toList_encode, lines_joinLines (lineFeed_notMem_of_mem_rows h), rows, List.map_cons,
      dropReturn_of_unbroken hdigits, List.map_map]
    rfl
  · rw [trim_of_not_blank hdigits.2]
    exact Decimal.denotes_toDigits _

/-- The text of a frame determines the lines of its entries, if they have no line feeds in them. -/
theorem encode_inj {entries entries' : List String} (h : ∀ entry ∈ entries, '\n' ∉ entry.toList)
    (h' : ∀ entry ∈ entries', '\n' ∉ entry.toList) :
    encode entries = encode entries' ↔ entries = entries' := by
  constructor
  · intro heq
    have hrows : rows entries = rows entries' := by
      rw [← joinLines_inj (lineFeed_notMem_of_mem_rows h) (lineFeed_notMem_of_mem_rows h'),
        ← toList_encode, ← toList_encode, heq]
    exact (List.map_inj_right fun _ _ => String.toList_inj.mp).mp (List.cons.inj hrows).2
  · rintro rfl
    rfl

end StoreTrial.Frame
