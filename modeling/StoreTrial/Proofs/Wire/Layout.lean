import Mathlib.Logic.Function.Basic
import Mathlib.Logic.Relation
import Mathlib.Tactic.Choose
import StoreTrial.Proofs.Text.Layout
import StoreTrial.Proofs.Wire.Frame
import StoreTrial.Trial

/-!
# Streams are read without their layout

A reader sees less of a text than its characters: the first line without the blanks around it, and
of every other line only its words, which for an outcome are the trimmed line and for an operation
the fields. This is the `content` of the text, and the entries, the fault and the number of lines
left over all follow from it (`Frame.decode_eq_of_content`). `Relaid` lists the ways to change the
layout of a text. None of them changes its content (`content_eq_of_relaid`), so texts that differ in
layout only are read alike (`layout_immaterial`).
-/

namespace StoreTrial

open Text

/-! ## Content -/

/-- What a stream says on a line after the first one. -/
def Stream.words (stream : Stream) (line : List Char) : List (List Char) :=
  match stream with
  | .operations => fields line
  | .outcomes => [trim line]

/-- The blanks around a line do not show in its words. -/
theorem Stream.words_trim (stream : Stream) (line : List Char) :
    stream.words (trim line) = stream.words line := by
  cases stream with
  | operations => exact fields_trim line
  | outcomes => exact congrArg (fun text => [text]) (trim_eq_self_iff.mpr (trimmed_trim line))

/-- A line is blank exactly if none of its words has a character. -/
theorem Stream.all_isBlank_eq (stream : Stream) (line : List Char) :
    line.all isBlank = (stream.words line).all List.isEmpty := by
  rw [Bool.eq_iff_iff, List.all_eq_true, List.all_eq_true]
  cases stream with
  | operations =>
    rw [← fields_eq_nil_iff]
    constructor
    · intro h
      simp [words, h]
    · intro h
      refine List.eq_nil_iff_forall_not_mem.mpr fun field hfield => ?_
      exact (unbroken_of_mem_fields hfield).1 (List.isEmpty_iff.mp (h field hfield))
  | outcomes =>
    rw [← trim_eq_nil_iff]
    simp [words]

/-- What is read of a text: its first line without the blanks around it, and the words of the
others. -/
def Stream.content (stream : Stream) (text : List Char) :
    Option (List Char) × List (List (List Char)) :=
  ((lines text).head?.map trim, (lines text).tail.map stream.words)

/-- The content of a text follows from its trimmed lines. -/
theorem Stream.content_eq (stream : Stream) (text : List Char) :
    stream.content text =
      ((trimmedLines text).head?, (trimmedLines text).tail.map stream.words) := by
  have hwords : stream.words ∘ trim = stream.words := funext stream.words_trim
  unfold content trimmedLines
  rw [List.head?_map, ← List.map_tail, List.map_map, hwords]

namespace Frame

variable {α : Type} {stream : Stream} {entry : Nat → List Char → Except Fault α}

/-- Lines with the same words hold the same entries, if an entry is read from the words of its
line. -/
theorem mapM_entry_eq_of_words (hentry : ∀ number, (entry number).FactorsThrough stream.words)
    {body body' : List (List Char)} (h : body.map stream.words = body'.map stream.words)
    (count : Nat) :
    (((body.take count).zipIdx 2).mapM fun line => entry line.2 line.1) =
      ((body'.take count).zipIdx 2).mapM fun line => entry line.2 line.1 := by
  have : Nonempty (Except Fault α) := ⟨.error (.malformedLine stream 1 .missingCount)⟩
  have hread : ∀ number, ∃ read, entry number = read ∘ stream.words := fun number =>
    (Function.factorsThrough_iff _).mp (hentry number)
  choose read hread using hread
  -- The words of the lines can be taken first, and then read.
  have hwords : ∀ ls : List (List Char),
      (((ls.take count).zipIdx 2).mapM fun line => entry line.2 line.1) =
        (((ls.map stream.words).take count).zipIdx 2).mapM fun line => read line.2 line.1 := by
    intro ls
    rw [← List.map_take, List.zipIdx_map, List.mapM_map]
    simp only [hread]
    rfl
  rw [hwords body, hwords body', h]

/-- Lines with the same words are blank alike. -/
theorem extraLines_eq_of_words (stream : Stream) {body body' : List (List Char)}
    (h : body.map stream.words = body'.map stream.words) (count : Nat) :
    extraLines count body = extraLines count body' := by
  have hwords : ∀ ls : List (List Char), extraLines count ls =
      ((ls.map stream.words).drop count).countP fun words => !words.all List.isEmpty := by
    intro ls
    unfold extraLines
    rw [← List.map_drop, List.countP_map]
    simp only [stream.all_isBlank_eq]
    rfl
  rw [hwords body, hwords body', h]

/-- Texts with the same content are read alike, if an entry is read from the words of its line. -/
theorem decode_eq_of_content (hentry : ∀ number, (entry number).FactorsThrough stream.words)
    {text text' : String} (h : stream.content text.toList = stream.content text'.toList) :
    decode stream entry text = decode stream entry text' := by
  unfold decode
  rw [Stream.content, Stream.content, Prod.mk.injEq] at h
  obtain ⟨hheader, hbody⟩ := h
  cases hlines : lines text.toList with
  | nil =>
    rw [hlines, List.head?_nil, Option.map_none] at hheader
    have hnone : lines text'.toList = [] :=
      List.head?_eq_none_iff.mp (Option.map_eq_none_iff.mp hheader.symm)
    rw [hnone]
  | cons header body =>
    rw [hlines, List.head?_cons, Option.map_some] at hheader
    -- The other text has a first line too, and announces the same number of entries.
    obtain ⟨header', hfirst, htrim⟩ := Option.map_eq_some_iff.mp hheader.symm
    obtain ⟨body', hlines'⟩ := List.head?_eq_some_iff.mp hfirst
    rw [hlines, hlines', List.tail_cons, List.tail_cons] at hbody
    have hcount : readCount stream header = readCount stream header' := by
      unfold readCount
      rw [htrim]
    have hentries := mapM_entry_eq_of_words hentry hbody
    have hextra : ∀ count, ((body.drop count).countP fun line => !line.all isBlank) =
        (body'.drop count).countP fun line => !line.all isBlank :=
      extraLines_eq_of_words stream hbody
    rw [hlines']
    simp only [hcount, hentries, hextra]

end Frame

/-! ## Changes of the layout -/

/-- A change of the layout of a text from which `stream` is read. -/
inductive Relaid (stream : Stream) : List Char → List Char → Prop
  /-- Every line feed gets a carriage return before it. -/
  | returns (text : List Char) : Relaid stream text (withReturns text)
  /-- A line gets blanks at its start. -/
  | padStart {before line after blanks : List Char} (hline : LineAt before line after)
      (hblanks : Padding blanks) :
      Relaid stream (before ++ line ++ after) (before ++ (blanks ++ line) ++ after)
  /-- A line gets blanks at its end. -/
  | padEnd {before line after blanks : List Char} (hline : LineAt before line after)
      (hblanks : Padding blanks) :
      Relaid stream (before ++ line ++ after) (before ++ (line ++ blanks) ++ after)
  /-- Blanks between the fields of an operation are replaced by others. The first line of a stream
  is not that of an operation. -/
  | respace {before first second after blanks blanks' : List Char}
      (hstream : stream = .operations) (hbefore : before ≠ [])
      (hline : LineAt before (first ++ blanks ++ second) after)
      (hblanks : Padding blanks ∧ blanks ≠ []) (hblanks' : Padding blanks' ∧ blanks' ≠ []) :
      Relaid stream (before ++ (first ++ blanks ++ second) ++ after)
        (before ++ (first ++ blanks' ++ second) ++ after)

/-- A line can be replaced by one that is the same when it is trimmed. -/
theorem Stream.content_eq_of_trim_eq (stream : Stream) {before line line' after : List Char}
    (hline : LineAt before line after) (hline' : LineAt before line' after)
    (h : trim line = trim line') :
    stream.content (before ++ line ++ after) = stream.content (before ++ line' ++ after) := by
  rw [content_eq, content_eq, hline.trimmedLines_eq, hline'.trimmedLines_eq, h]

/-- A line after the first one can be replaced by one with the same fields in a stream of
operations. -/
theorem content_eq_of_fields_eq {before line line' after : List Char} (hbefore : before ≠ [])
    (hline : LineAt before line after) (hline' : LineAt before line' after)
    (h : fields line = fields line') :
    Stream.operations.content (before ++ line ++ after) =
      Stream.operations.content (before ++ line' ++ after) := by
  obtain ⟨header, body, hlines⟩ :=
    List.exists_cons_of_ne_nil (hline.trimmedLines_ne_nil hbefore)
  have hwords : Stream.operations.words (trim line) = Stream.operations.words (trim line') := by
    rw [Stream.words_trim, Stream.words_trim]
    exact h
  simp only [Stream.content_eq, hline.trimmedLines_eq, hline'.trimmedLines_eq, hlines,
    List.cons_append, List.head?_cons, List.tail_cons, List.map_append, List.map_cons, hwords]

/-- A change of the layout leaves the content as it is. -/
theorem Relaid.content_eq {stream : Stream} {text text' : List Char}
    (h : Relaid stream text text') : stream.content text = stream.content text' := by
  cases h with
  | returns text =>
    rw [Stream.content_eq, Stream.content_eq, trimmedLines_withReturns]
  | @padStart before line after blanks hline hblanks =>
    have hfeed : '\n' ∉ blanks ++ line := by simp [hline.whole, hblanks.lineFeed_notMem]
    have hpadded : LineAt before (blanks ++ line) after :=
      hline.replace hfeed fun hne => List.append_ne_nil_of_right_ne_nil _ hne
    exact stream.content_eq_of_trim_eq hline hpadded (trim_blanks_append hblanks.isBlank line).symm
  | @padEnd before line after blanks hline hblanks =>
    have hfeed : '\n' ∉ line ++ blanks := by simp [hline.whole, hblanks.lineFeed_notMem]
    have hpadded : LineAt before (line ++ blanks) after :=
      hline.replace hfeed fun hne => List.append_ne_nil_of_left_ne_nil hne _
    exact stream.content_eq_of_trim_eq hline hpadded (trim_append_blanks hblanks.isBlank line).symm
  | @respace before first second after blanks blanks' hstream hbefore hline hblanks hblanks' =>
    subst hstream
    -- The line still has no line feed, and its fields are still those on both sides of the blanks.
    have hwhole := hline.whole
    have hfeed : '\n' ∉ first ++ blanks' ++ second := by
      simp only [List.mem_append, not_or] at hwhole ⊢
      exact ⟨⟨hwhole.1.1, hblanks'.1.lineFeed_notMem⟩, hwhole.2⟩
    have hspaced : LineAt before (first ++ blanks' ++ second) after :=
      hline.replace hfeed fun _ =>
        List.append_ne_nil_of_left_ne_nil (List.append_ne_nil_of_right_ne_nil _ hblanks'.2) _
    refine content_eq_of_fields_eq hbefore hline hspaced ?_
    calc fields (first ++ blanks ++ second)
        = fields first ++ fields second :=
          fields_append_blanks_append hblanks.2 hblanks.1.isBlank first second
      _ = fields (first ++ blanks' ++ second) :=
          (fields_append_blanks_append hblanks'.2 hblanks'.1.isBlank first second).symm

/-- Any changes of the layout, made or undone one after another, leave the content as it is. -/
theorem content_eq_of_relaid {stream : Stream} {text text' : List Char}
    (h : Relation.EqvGen (Relaid stream) text text') :
    stream.content text = stream.content text' := by
  induction h with
  | rel _ _ hstep => exact hstep.content_eq
  | refl => rfl
  | symm _ _ _ ih => exact ih.symm
  | trans _ _ _ _ _ ih ih' => exact ih.trans ih'

/-- Reading is insensitive to layout, faults included. Texts that are the same but for carriage
returns before the line feeds, blanks at the starts and ends of lines and, for operations, the
blanks between fields are read with the same result: the same entries and the same number of lines
left over, or the same fault. So they also give the same warning. -/
theorem layout_immaterial (text text' : String) :
    (Relation.EqvGen (Relaid .operations) text.toList text'.toList →
      OperationStream.decode text = OperationStream.decode text' ∧
        Trial.operations text = Trial.operations text') ∧
    (Relation.EqvGen (Relaid .outcomes) text.toList text'.toList →
      OutcomeStream.decode text = OutcomeStream.decode text' ∧
        Trial.outcomes text = Trial.outcomes text') := by
  constructor
  · intro h
    have hentry : ∀ number, (Operation.decode number).FactorsThrough Stream.operations.words := by
      intro number line line' hfields
      have hfields : fields line = fields line' := hfields
      unfold Operation.decode
      rw [hfields]
    have hdecode : OperationStream.decode text = OperationStream.decode text' :=
      Frame.decode_eq_of_content hentry (content_eq_of_relaid h)
    exact ⟨hdecode, congrArg (Trial.entries .operations) hdecode⟩
  · intro h
    have hentry : ∀ _ : Nat, Function.FactorsThrough
        (fun line => Except.ok (ε := Fault) (Outcome.ofLine (String.ofList (trim line))))
        Stream.outcomes.words := by
      intro _ line line' hwords
      have htrim : trim line = trim line' := (List.cons.inj hwords).1
      simp only [htrim]
    have hdecode : OutcomeStream.decode text = OutcomeStream.decode text' :=
      Frame.decode_eq_of_content hentry (content_eq_of_relaid h)
    exact ⟨hdecode, congrArg (Trial.entries .outcomes) hdecode⟩

/-- A carriage return, blanks around a line and more blanks between two fields leave a stream of
operations as it was, and a blank before the last line a stream of outcomes. -/
theorem layout_immaterial_of_blanks :
    (Relation.EqvGen (Relaid .operations) "1\n1 k".toList "1\r\n\t1  k\u3000".toList ∧
      OperationStream.decode "1\n1 k" = OperationStream.decode "1\r\n\t1  k\u3000") ∧
    Relation.EqvGen (Relaid .outcomes) "1\nOK".toList "1\n\tOK".toList ∧
      OutcomeStream.decode "1\nOK" = OutcomeStream.decode "1\n\tOK" := by
  have htab : Padding ['\t'] := by decide
  have hwide : Padding ['\u3000'] := by decide
  have hspace : Padding [' '] ∧ [' '] ≠ [] := by decide
  have hspaces : Padding [' ', ' '] ∧ [' ', ' '] ≠ [] := by decide
  have hreturn : Relaid .operations "1\n1 k".toList "1\r\n1 k".toList := .returns _
  have hstart : Relaid .operations "1\r\n1 k".toList "1\r\n\t1 k".toList :=
    have hline : LineAt "1\r\n".toList "1 k".toList [] := by constructor <;> decide
    .padStart hline htab
  have hend : Relaid .operations "1\r\n\t1 k".toList "1\r\n\t1 k\u3000".toList :=
    have hline : LineAt "1\r\n".toList "\t1 k".toList [] := by constructor <;> decide
    .padEnd hline hwide
  have hwithin : Relaid .operations "1\r\n\t1 k\u3000".toList "1\r\n\t1  k\u3000".toList :=
    have hline : LineAt "1\r\n".toList ("\t1".toList ++ [' '] ++ "k\u3000".toList) [] := by
      constructor <;> decide
    .respace rfl (by decide) hline hspace hspaces
  have hanswer : Relaid .outcomes "1\nOK".toList "1\n\tOK".toList :=
    have hline : LineAt "1\n".toList "OK".toList [] := by constructor <;> decide
    .padStart hline htab
  have hoperations : Relation.EqvGen (Relaid .operations) "1\n1 k".toList
      "1\r\n\t1  k\u3000".toList :=
    ((Relation.EqvGen.rel _ _ hreturn).trans _ _ _ (.rel _ _ hstart)).trans _ _ _
      ((Relation.EqvGen.rel _ _ hend).trans _ _ _ (.rel _ _ hwithin))
  have houtcomes := Relation.EqvGen.rel _ _ hanswer
  exact ⟨⟨hoperations, ((layout_immaterial _ _).1 hoperations).1⟩, houtcomes,
    ((layout_immaterial _ _).2 houtcomes).1⟩

end StoreTrial
