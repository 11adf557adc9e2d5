import StoreTrial.Proofs.Text.Lines
import StoreTrial.Wire.OperationStream

/-!
# The line of an operation

An operation is its kind and its texts: a key and, for a write, a value. A line stands for an
operation exactly when its fields are the tag of the kind and the texts (`decode_eq_ok_iff`). An
operation is written exactly when each of its texts is unbroken, and otherwise refused for the first
text that is none (`encode_eq`). So the operations that are written are those that can be read back
from their rendering (`decode_render_eq_ok_iff`).
-/

namespace StoreTrial.Operation

open Text

/-- The texts of an operation in the order in which they stand on its line. -/
def texts : Operation → List (Field × String)
  | read key => [(.key, key)]
  | write key value => [(.key, key), (.value, value)]
  | delete key => [(.key, key)]

/-- The text of a field can stand on a line as one of its fields. -/
def Fits (part : Field × String) : Prop := Unbroken part.2.toList

instance (part : Field × String) : Decidable (Fits part) :=
  inferInstanceAs (Decidable (Unbroken _))

/-- All texts of an operation fit on its line. -/
def Writable (operation : Operation) : Prop := ∀ part ∈ operation.texts, Fits part

/-- The first text of an operation that does not fit on its line, if there is one. -/
def misfit? (operation : Operation) : Option (Field × String) :=
  operation.texts.find? fun part => !decide (Fits part)

/-- The fault of a text that does not fit on a line. -/
def misfitFault (part : Field × String) : Fault :=
  .invalidField part.1 (if part.2 = "" then .empty else .blank part.2)

/-- An operation is writable if none of its texts is a misfit. -/
theorem writable_iff {operation : Operation} :
    operation.Writable ↔ operation.misfit? = none := by
  simp [Writable, misfit?]

/-! ## Writing -/

/-- A text passes the check of its field if it fits, and is refused otherwise. -/
theorem checkField_eq (field : Field) (text : String) :
    checkField field text =
      if Fits (field, text) then .ok () else .error (misfitFault (field, text)) := by
  unfold checkField
  by_cases hempty : text = ""
  · subst hempty
    rfl
  · have hne : text.toList ≠ [] := fun h => hempty (String.toList_eq_nil_iff.mp h)
    have hnotEmpty : ¬ text.isEmpty = true := by simpa using hempty
    rw [if_neg hnotEmpty]
    by_cases hblank : text.toList.any isBlank = true
    · have hmisfit : ¬ Fits (field, text) := by
        intro hfits
        obtain ⟨c, hc, hcblank⟩ := List.any_eq_true.mp hblank
        rw [hfits.2 c hc] at hcblank
        contradiction
      rw [if_pos hblank, if_neg hmisfit]
      simp only [misfitFault, if_neg hempty]
    · have hfits : Fits (field, text) := ⟨hne, by simpa using hblank⟩
      rw [if_neg hblank, if_pos hfits]

/-- An operation is written as its rendering if its texts fit, and refused for the first that does
not. -/
theorem encode_eq (operation : Operation) :
    operation.encode =
      match operation.misfit? with
      | none => .ok operation.render
      | some part => .error (misfitFault part) := by
  unfold encode misfit?
  cases operation with
  | read key | delete key =>
    simp only [texts, checkField_eq, Operation.key, List.find?_cons, List.find?_nil]
    by_cases hkey : Fits (.key, key)
    · simp only [hkey, decide_true, Bool.not_true, if_true]
      rfl
    · simp only [hkey, decide_false, Bool.not_false, if_false]
      rfl
  | write key value =>
    -- The value is looked at only if the key fits.
    simp only [texts, checkField_eq, Operation.key, List.find?_cons, List.find?_nil]
    by_cases hkey : Fits (.key, key)
    · by_cases hvalue : Fits (.value, value)
      · simp only [hkey, hvalue, decide_true, Bool.not_true, if_true]
        rfl
      · simp only [hkey, hvalue, decide_true, decide_false, Bool.not_true, Bool.not_false, if_true,
          if_false]
        rfl
    · simp only [hkey, decide_false, Bool.not_false, if_false]
      rfl

/-- An operation is written exactly when all its texts fit. -/
theorem encode_eq_ok_iff {operation : Operation} {line : String} :
    operation.encode = .ok line ↔ operation.Writable ∧ line = operation.render := by
  rw [encode_eq, writable_iff]
  cases operation.misfit? with
  | none => simp [eq_comm]
  | some part => simp

/-! ## Reading -/

/-- A line stands for an operation exactly when its fields are the tag of the operation's kind and
the texts of the operation. -/
theorem decode_eq_ok_iff {number : Nat} {line : List Char} {operation : Operation} :
    decode number line = .ok operation ↔
      (fields line).map String.ofList =
        operation.kind.tag :: operation.texts.map Prod.snd := by
  constructor
  · intro h
    unfold decode at h
    split at h
    · contradiction
    · rename_i tag arguments hrow
      rw [hrow]
      split at h
      · contradiction
      · rename_i hkind
        cases h
        rw [← Kind.ofTag?_eq_some_iff.mp hkind]
        rfl
      · rename_i hkind
        cases h
        rw [← Kind.ofTag?_eq_some_iff.mp hkind]
        rfl
      · rename_i hkind
        cases h
        rw [← Kind.ofTag?_eq_some_iff.mp hkind]
        rfl
      · contradiction
  · intro h
    unfold decode
    rw [h]
    cases operation <;> rfl

/-- The tag of a kind is unbroken. -/
theorem unbroken_tag (kind : Kind) : Unbroken kind.tag.toList := by
  cases kind <;> decide

/-- An operation is rendered as the tag of its kind and its texts, each after a space. -/
theorem toList_render (operation : Operation) :
    operation.render.toList =
      operation.kind.tag.toList ++ (operation.texts.map fun part => part.2.toList).flatMap
        fun text => ' ' :: text := by
  cases operation <;> simp [render, kind, texts, toString]

/-- The rendering of an operation whose texts fit has the tag of its kind and its texts as its
fields. -/
theorem fields_render {operation : Operation} (h : operation.Writable) :
    fields operation.render.toList =
      operation.kind.tag.toList :: operation.texts.map fun part => part.2.toList := by
  rw [toList_render, fields_append_flatMap (unbroken_tag _)]
  rwa [List.forall_mem_map]

/-- The only blanks in the rendering of an operation whose texts fit are spaces. -/
theorem notMem_render {operation : Operation} (h : operation.Writable) {c : Char}
    (hblank : isBlank c = true) (hspace : c ≠ ' ') : c ∉ operation.render.toList := by
  have hfield : ∀ {field : List Char}, Unbroken field → c ∉ field := by
    intro field hfield hmem
    rw [hfield.2 c hmem] at hblank
    contradiction
  rw [toList_render, List.mem_append, List.mem_flatMap]
  rintro (htag | ⟨text, htext, hc⟩)
  · exact hfield (unbroken_tag _) htag
  · obtain ⟨part, hpart, rfl⟩ := List.mem_map.mp htext
    rcases List.mem_cons.mp hc with rfl | hc
    · exact hspace rfl
    · exact hfield (h part hpart) hc

/-- There is no line feed in the rendering of an operation whose texts fit. -/
theorem lineFeed_notMem_render {operation : Operation} (h : operation.Writable) :
    '\n' ∉ operation.render.toList :=
  notMem_render h isBlank_lineFeed (by decide)

/-- An operation on a line is one whose texts fit. -/
theorem writable_of_decode {number : Nat} {line : List Char} {operation : Operation}
    (h : decode number line = .ok operation) : operation.Writable := by
  intro part hpart
  rw [decode_eq_ok_iff] at h
  have hmem : part.2 ∈ (fields line).map String.ofList := by
    rw [h]
    exact List.mem_cons_of_mem _ (List.mem_map_of_mem hpart)
  obtain ⟨field, hfield, hpart⟩ := List.mem_map.mp hmem
  unfold Fits
  rw [← hpart, String.toList_ofList]
  exact unbroken_of_mem_fields hfield

/-- An operation whose texts fit can be read back from its rendering. -/
theorem decode_render {number : Nat} {operation : Operation} (h : operation.Writable) :
    decode number operation.render.toList = .ok operation := by
  rw [decode_eq_ok_iff, fields_render h]
  simp

/-- The operations that can be read back from their rendering are those whose texts fit. -/
theorem decode_render_eq_ok_iff {number : Nat} {operation : Operation} :
    decode number operation.render.toList = .ok operation ↔ operation.Writable :=
  ⟨writable_of_decode, decode_render⟩

end StoreTrial.Operation
