import StoreTrial.Proofs.Wire.Frame
import StoreTrial.Wire.OutcomeStream

/-!
# What a stream of outcomes holds

A stream of outcomes is accepted exactly when its text has a frame with at least as many lines as it
announces, and its outcomes are then read from those lines (`decode_eq_ok_iff`). The text of
outcomes without line feeds determines their lines, though not the outcomes themselves
(`encode_eq_encode_iff`). Any outcomes can be written, but a text gives back only lines without line
feeds and without blanks around them, and it gives back a value that is spelled like a marker as the
marker: `read_back_iff` says exactly which outcomes survive their text.
-/

namespace StoreTrial

open Text

namespace Outcome

/-- A plain outcome has a line without a line feed in it and without blanks around it. -/
def Plain (outcome : Outcome) : Prop :=
  '\n' ∉ outcome.line.toList ∧ Trimmed outcome.line.toList

/-- An outcome with an unbroken line is plain. -/
theorem plain_of_unbroken {outcome : Outcome} (h : Unbroken outcome.line.toList) :
    outcome.Plain :=
  ⟨h.lineFeed_notMem, trim_eq_self_iff.mp (trim_of_not_blank h.2)⟩

/-- Only a value can fail to be plain. -/
theorem plain_iff {outcome : Outcome} :
    outcome.Plain ↔
      ∀ text, outcome = .value text → '\n' ∉ text.toList ∧ Trimmed text.toList := by
  cases outcome with
  | value text =>
    constructor
    · rintro hplain _ ⟨⟩
      exact hplain
    · intro h
      exact h text rfl
  | success =>
    have hplain : Outcome.success.Plain := plain_of_unbroken (by decide)
    simp [hplain]
  | notFound =>
    have hplain : Outcome.notFound.Plain := plain_of_unbroken (by decide)
    simp [hplain]

/-- An outcome is that of its line unless it is a value that is spelled like a marker. -/
theorem ofLine_line_eq_self_iff {outcome : Outcome} :
    ofLine outcome.line = outcome ↔
      ∀ text, outcome = .value text → text ≠ successMarker ∧ text ≠ notFoundMarker := by
  have hmarkers : notFoundMarker ≠ successMarker := by decide
  cases outcome with
  | value text =>
    by_cases hsuccess : text = successMarker
    · simp [line, ofLine, hsuccess]
    · by_cases hnotFound : text = notFoundMarker
      · simp [line, ofLine, hnotFound, hmarkers]
      · simp [line, ofLine, hsuccess, hnotFound]
  | success => simp [line, ofLine]
  | notFound => simp [line, ofLine, hmarkers]

end Outcome

namespace OutcomeStream

/-- The text of a line without the blanks around it. -/
def trimmed (line : List Char) : String := String.ofList (trim line)

/-- A stream of outcomes is accepted exactly when its announced lines are there, and its outcomes
are then those of the trimmed lines. -/
theorem decode_eq_ok_iff {text : String} {decoded : Decoded Outcome} :
    decode text = .ok decoded ↔ ∃ body, Frame.Framed text decoded.entries.length body ∧
      (body.take decoded.entries.length).map (fun line => Outcome.ofLine (trimmed line)) =
        decoded.entries ∧
      decoded.extra = Frame.extraLines decoded.entries.length body := by
  -- The reading of a line neither fails nor depends on its number.
  have hentries : ∀ ls : List (List Char),
      (ls.zipIdx 2).map (fun line => Except.ok (ε := Fault) (Outcome.ofLine (trimmed line.1))) =
        decoded.entries.map .ok ↔
      ls.map (fun line => Outcome.ofLine (trimmed line)) = decoded.entries := by
    intro ls
    rw [Frame.map_fst_zipIdx fun line => Except.ok (ε := Fault) (Outcome.ofLine (trimmed line))]
    have hmap : ls.map (fun line => Except.ok (ε := Fault) (Outcome.ofLine (trimmed line))) =
        (ls.map fun line => Outcome.ofLine (trimmed line)).map .ok := List.map_map.symm
    rw [hmap, List.map_inj_right fun _ _ => Except.ok.inj]
  unfold decode
  rw [Frame.decode_eq_ok_iff]
  exact exists_congr fun body => and_congr_right fun _ => and_congr_left fun _ => hentries _

/-- A stream of outcomes that is refused is refused for one of its lines. -/
theorem malformedLine_of_decode {text : String} {fault : Fault} (h : decode text = .error fault) :
    ∃ line cause, fault = .malformedLine .outcomes line cause := by
  refine Frame.malformedLine_of_decode (fun number line fault hentry => ?_) h
  -- No line that is there is refused.
  contradiction

/-- The lines of the outcomes of a stream are its trimmed lines. -/
theorem map_line_of_decode {text : String} {decoded : Decoded Outcome}
    (h : decode text = .ok decoded) : ∃ body, Frame.Framed text decoded.entries.length body ∧
      decoded.entries.map Outcome.line = (body.take decoded.entries.length).map trimmed := by
  obtain ⟨body, hframe, hentries, -⟩ := decode_eq_ok_iff.mp h
  refine ⟨body, hframe, ?_⟩
  have hlines := congrArg (List.map Outcome.line) hentries
  rw [← hlines, List.map_map]
  exact List.map_congr_left fun line _ => Outcome.line_ofLine (trimmed line)

/-- The outcomes of a stream are plain. -/
theorem plain_of_decode {text : String} {decoded : Decoded Outcome}
    (h : decode text = .ok decoded) : ∀ outcome ∈ decoded.entries, outcome.Plain := by
  obtain ⟨body, hframe, hlines⟩ := map_line_of_decode h
  intro outcome houtcome
  have hmem : outcome.line ∈ decoded.entries.map Outcome.line := List.mem_map_of_mem houtcome
  rw [hlines] at hmem
  obtain ⟨line, hline, htrimmed⟩ := List.mem_map.mp hmem
  have htext : outcome.line.toList = trim line := by
    rw [← htrimmed, trimmed, String.toList_ofList]
  have hfeed : '\n' ∉ line := hframe.lineFeed_notMem (List.mem_of_mem_take hline)
  unfold Outcome.Plain
  rw [htext]
  exact ⟨fun hfound => hfeed (mem_of_mem_trim hfound), trimmed_trim line⟩

/-- The lines of the outcomes of a stream have no line feeds in them. -/
theorem lineFeed_notMem_of_decode {text : String} {decoded : Decoded Outcome}
    (h : decode text = .ok decoded) :
    ∀ outcome ∈ decoded.entries, '\n' ∉ outcome.line.toList :=
  fun outcome houtcome => (plain_of_decode h outcome houtcome).1

/-- A carriage return at the end of a line is no part of its trimmed text. -/
theorem trimmed_dropReturn (line : List Char) : trimmed (dropReturn line) = trimmed line := by
  unfold trimmed
  rw [trim_dropReturn]

/-- Outcomes are read back from their text by their trimmed lines, if these have no line feeds in
them and their number fits in 64 bits, and no line is left over. -/
theorem decode_encode {outcomes : List Outcome}
    (h : ∀ outcome ∈ outcomes, '\n' ∉ outcome.line.toList)
    (hlength : outcomes.length < UInt64.size) :
    decode (encode outcomes) =
      .ok ⟨outcomes.map fun outcome => Outcome.ofLine (trimmed outcome.line.toList), 0⟩ := by
  have hframe : Frame.Framed (encode outcomes) (outcomes.map Outcome.line).length _ :=
    Frame.framed_encode (by rwa [List.forall_mem_map]) (by rwa [List.length_map])
  rw [List.length_map, List.map_map] at hframe
  have hall : (outcomes.map
      ((fun entry => dropReturn entry.toList) ∘ Outcome.line)).length ≤ outcomes.length :=
    Nat.le_of_eq (List.length_map _)
  refine decode_eq_ok_iff.mpr ⟨_, by rwa [List.length_map], ?_, ?_⟩
  · rw [List.length_map, List.take_of_length_le hall, List.map_map]
    refine List.map_congr_left fun outcome _ => ?_
    simp only [Function.comp_apply, trimmed_dropReturn]
  · rw [List.length_map]
    exact (Frame.extraLines_of_length_le hall).symm

/-- The text of outcomes determines their lines, if these have no line feeds in them. -/
theorem encode_eq_encode_iff {outcomes outcomes' : List Outcome}
    (h : ∀ outcome ∈ outcomes, '\n' ∉ outcome.line.toList)
    (h' : ∀ outcome ∈ outcomes', '\n' ∉ outcome.line.toList) :
    encode outcomes = encode outcomes' ↔
      outcomes.map Outcome.line = outcomes'.map Outcome.line := by
  apply Frame.encode_inj
  · rwa [List.forall_mem_map]
  · rwa [List.forall_mem_map]

/-- Plain outcomes are read back from their text as the outcomes of their lines. -/
theorem decode_encode_of_plain {outcomes : List Outcome} (h : ∀ outcome ∈ outcomes, outcome.Plain)
    (hlength : outcomes.length < UInt64.size) :
    decode (encode outcomes) =
      .ok ⟨outcomes.map fun outcome => Outcome.ofLine outcome.line, 0⟩ := by
  rw [decode_encode (fun outcome houtcome => (h outcome houtcome).1) hlength]
  have hentries : (outcomes.map fun outcome => Outcome.ofLine (trimmed outcome.line.toList)) =
      outcomes.map fun outcome => Outcome.ofLine outcome.line := by
    refine List.map_congr_left fun outcome houtcome => ?_
    rw [trimmed, trim_eq_self_iff.mpr (h outcome houtcome).2, String.ofList_toList]
  rw [hentries]

/-- The outcomes of the lines of outcomes have these lines. -/
theorem map_line_ofLine_line (outcomes : List Outcome) :
    (outcomes.map fun outcome => Outcome.ofLine outcome.line).map Outcome.line =
      outcomes.map Outcome.line := by
  rw [List.map_map]
  exact List.map_congr_left fun outcome _ => Outcome.line_ofLine outcome.line

/-- The lines of outcomes are read back exactly if the outcomes are plain and their number fits in
64 bits. -/
theorem exists_map_line_eq_iff {outcomes : List Outcome} :
    (∃ read, (decode (encode outcomes)).map Decoded.entries = .ok read ∧
        read.map Outcome.line = outcomes.map Outcome.line) ↔
      outcomes.length < UInt64.size ∧ ∀ outcome ∈ outcomes, outcome.Plain := by
  constructor
  · rintro ⟨read, hread, hlines⟩
    obtain ⟨decoded, hdecode, rfl⟩ : ∃ decoded, decode (encode outcomes) = .ok decoded ∧
        decoded.entries = read := by
      cases hdecode : decode (encode outcomes) with
      | error fault =>
        rw [hdecode] at hread
        contradiction
      | ok decoded =>
        rw [hdecode] at hread
        exact ⟨decoded, rfl, Except.ok.inj hread⟩
    have hlength : decoded.entries.length = outcomes.length := by
      simpa using congrArg List.length hlines
    refine ⟨hlength ▸ Frame.length_lt_of_decode hdecode, fun outcome houtcome => ?_⟩
    -- What was read is plain, and being plain is a matter of the line alone.
    have hmem : outcome.line ∈ decoded.entries.map Outcome.line := by
      rw [hlines]
      exact List.mem_map_of_mem houtcome
    obtain ⟨entry, hentry, hline⟩ := List.mem_map.mp hmem
    have hplain : entry.Plain := plain_of_decode hdecode entry hentry
    unfold Outcome.Plain at hplain ⊢
    rwa [hline] at hplain
  · rintro ⟨hlength, hplain⟩
    exact ⟨_, congrArg (Except.map Decoded.entries) (decode_encode_of_plain hplain hlength),
      map_line_ofLine_line outcomes⟩

/-- Outcomes are read back exactly if they are plain, each is that of its line, and their number
fits in 64 bits. -/
theorem decode_encode_eq_self_iff {outcomes : List Outcome} :
    (decode (encode outcomes)).map Decoded.entries = .ok outcomes ↔
      (outcomes.length < UInt64.size ∧ ∀ outcome ∈ outcomes, outcome.Plain) ∧
        ∀ outcome ∈ outcomes, Outcome.ofLine outcome.line = outcome := by
  have hself : (outcomes.map fun outcome => Outcome.ofLine outcome.line) = outcomes ↔
      ∀ outcome ∈ outcomes, Outcome.ofLine outcome.line = outcome :=
    calc (outcomes.map fun outcome => Outcome.ofLine outcome.line) = outcomes
        ↔ (outcomes.map fun outcome => Outcome.ofLine outcome.line) = outcomes.map id := by
          rw [List.map_id]
      _ ↔ ∀ outcome ∈ outcomes, Outcome.ofLine outcome.line = outcome := List.map_inj_left
  constructor
  · intro hread
    have hplain := exists_map_line_eq_iff.mp ⟨outcomes, hread, rfl⟩
    rw [decode_encode_of_plain hplain.2 hplain.1] at hread
    exact ⟨hplain, hself.mp (Except.ok.inj hread)⟩
  · rintro ⟨⟨hlength, hplain⟩, hmarkers⟩
    rw [decode_encode_of_plain hplain hlength, hself.mpr hmarkers]
    rfl

/-- Writing outcomes is not guarded, so not all of them can be read back. The text of outcomes is
read as outcomes with the same lines at the same positions if and only if no value among them has a
line feed in it or a blank at its start or end, and it is read as the very same outcomes if and only
if, besides, no value is spelled like a marker (the number of outcomes on the first line has to fit
in 64 bits). -/
theorem read_back_iff (outcomes : List Outcome) :
    ((∃ read, (decode (encode outcomes)).map Decoded.entries = .ok read ∧
        read.map Outcome.line = outcomes.map Outcome.line) ↔
      outcomes.length < UInt64.size ∧
        ∀ text, .value text ∈ outcomes → '\n' ∉ text.toList ∧ Trimmed text.toList) ∧
    ((decode (encode outcomes)).map Decoded.entries = .ok outcomes ↔
      outcomes.length < UInt64.size ∧
        ∀ text, .value text ∈ outcomes → ('\n' ∉ text.toList ∧ Trimmed text.toList) ∧
          text ≠ Outcome.successMarker ∧ text ≠ Outcome.notFoundMarker) := by
  have hvalues : ∀ P : String → Prop,
      (∀ outcome ∈ outcomes, ∀ text, outcome = .value text → P text) ↔
        ∀ text, .value text ∈ outcomes → P text := by
    intro P
    constructor
    · intro h text hmem
      exact h _ hmem text rfl
    · rintro h _ hmem text rfl
      exact h text hmem
  have hplain : (∀ outcome ∈ outcomes, outcome.Plain) ↔
      ∀ text, .value text ∈ outcomes → '\n' ∉ text.toList ∧ Trimmed text.toList := by
    rw [← hvalues]
    exact forall₂_congr fun outcome _ => Outcome.plain_iff
  have hmarkers : (∀ outcome ∈ outcomes, Outcome.ofLine outcome.line = outcome) ↔
      ∀ text, .value text ∈ outcomes →
        text ≠ Outcome.successMarker ∧ text ≠ Outcome.notFoundMarker := by
    rw [← hvalues]
    exact forall₂_congr fun outcome _ => Outcome.ofLine_line_eq_self_iff
  constructor
  · rw [exists_map_line_eq_iff, hplain]
  · rw [decode_encode_eq_self_iff, hplain, hmarkers, and_assoc]
    simp only [imp_and, forall_and]

/-- A line feed in a value cuts the value off and leaves a line over. -/
example : decode (encode [.value "a\nb"]) = .ok ⟨[.value "a"], 1⟩ := rfl

end OutcomeStream

end StoreTrial
