import StoreTrial.Json.Parser

/-!
# Reading values from their parts

The rules by which the parser goes from the parts of a value to the value. Blank space before a
value changes nothing (`readValue_congr`). The last item of an array is followed by the closing
bracket and every other one by a comma (`readItems_last`, `readItems_cons`), and the members of an
object likewise. An array or object that has parts is read by reading them (`readValue_array`,
`readValue_object`).
-/

namespace StoreTrial.Json

/-! ## Blank space -/

/-- `Blank text` holds if nothing but blank space is in the text. -/
def Blank (text : List Char) : Prop := ∀ c ∈ text, isSpace c = true

/-- Blank space at the start of a text is skipped. -/
theorem Blank.skipSpace_append {blank : List Char} (h : Blank blank) (text : List Char) :
    skipSpace (blank ++ text) = skipSpace text :=
  List.dropWhile_append_of_pos h

/-- Where something stands at the start of a text, nothing is skipped. -/
theorem skipSpace_cons {c : Char} (h : isSpace c = false) (text : List Char) :
    skipSpace (c :: text) = c :: text :=
  List.dropWhile_cons_of_neg (by simp [h])

/-- What is left after blank space is skipped has none at its start. -/
theorem skipSpace_skipSpace (text : List Char) : skipSpace (skipSpace text) = skipSpace text := by
  induction text with
  | nil => rfl
  | cons c text ih =>
    cases h : isSpace c with
    | true =>
      have hskip : skipSpace (c :: text) = skipSpace text := List.dropWhile_cons_of_pos h
      rw [hskip, ih]
    | false => rw [skipSpace_cons h, skipSpace_cons h]

/-- A value is read after the blank space before it. -/
theorem readValue_congr {fuel : Nat} {text text' : List Char}
    (h : skipSpace text = skipSpace text') : readValue fuel text = readValue fuel text' := by
  cases fuel with
  | zero => simp only [readValue]
  | succ fuel => simp only [readValue, h]

/-- Items are read after the blank space before the first one. -/
theorem readItems_congr {fuel : Nat} {text text' : List Char}
    (h : skipSpace text = skipSpace text') : readItems fuel text = readItems fuel text' := by
  cases fuel with
  | zero => simp only [readItems]
  | succ fuel => simp only [readItems, readValue_congr h]

/-- Members are read after the blank space before the first one. -/
theorem readMembers_congr {fuel : Nat} {text text' : List Char}
    (h : skipSpace text = skipSpace text') : readMembers fuel text = readMembers fuel text' := by
  cases fuel with
  | zero => simp only [readMembers]
  | succ fuel => simp only [readMembers, h]

/-! ## Strings and numbers -/

/-- A value that starts with a quotation mark is a string. -/
theorem readValue_quotation {fuel : Nat} {text rest : List Char} {s : String}
    (h : readString text = some (some s, rest)) :
    readValue (fuel + 1) ('"' :: text) = some (string s, rest) := by
  have hstring : readValue (fuel + 1) ('"' :: text) =
    (readString text).map fun result => ((result.1.map string).getD foreign, result.2) := rfl
  rw [hstring, h]
  rfl

/-- A value that starts with a digit is a number without a sign. -/
theorem readValue_digit {c : Char} (h : c.isDigit = true) (fuel : Nat) (text : List Char) :
    readValue (fuel + 1) (c :: text) = readUnsigned (c :: text) := by
  have hne : ∀ mark : Char, mark.isDigit = false → c ≠ mark := by
    intro mark hmark heq
    rw [heq, hmark] at h
    contradiction
  have hstart : ∀ {mark : Char} {rest : List Char}, mark.isDigit = false →
      c :: text ≠ mark :: rest := fun hmark heq => hne _ hmark (List.cons.inj heq).1
  have hspace : isSpace c = false := by
    simp [isSpace, hne ' ' rfl, hne '\n' rfl, hne '\t' rfl, hne '\r' rfl]
  rw [readValue, skipSpace_cons hspace]
  -- No other kind of value starts with a digit, and neither does a number with a sign.
  split
  any_goals exact absurd ‹_ = _› (hstart rfl)
  unfold readNumber
  split
  · exact absurd ‹_ = _› (hstart rfl)
  · rfl

/-! ## Arrays -/

/-- The last item of an array is read where the closing bracket follows it. -/
theorem readItems_last {fuel : Nat} {text after rest : List Char} {item : Json}
    (hitem : readValue fuel text = some (item, after)) (hafter : skipSpace after = ']' :: rest) :
    readItems (fuel + 1) text = some ([item], rest) := by
  simp [readItems, hitem, hafter]

/-- An item of an array is read where a comma and further items follow it. -/
theorem readItems_cons {fuel : Nat} {text after others rest : List Char} {item : Json}
    {items : List Json} (hitem : readValue fuel text = some (item, after))
    (hafter : skipSpace after = ',' :: others)
    (hothers : readItems fuel others = some (items, rest)) :
    readItems (fuel + 1) text = some (item :: items, rest) := by
  simp [readItems, hitem, hafter, hothers]

/-- No items are read where the closing bracket stands. -/
theorem readItems_bracket (fuel : Nat) (text : List Char) :
    readItems fuel (']' :: text) = none := by
  have hvalue : ∀ fuel, readValue fuel (']' :: text) = none := by
    intro fuel
    cases fuel with
    | zero => simp only [readValue]
    | succ fuel => rfl
  cases fuel with
  | zero => simp only [readItems]
  | succ fuel => simp only [readItems, hvalue, Option.bind_eq_bind, Option.bind_none]

/-- An array with items is read by reading the items. -/
theorem readValue_array {fuel : Nat} {text rest : List Char} {items : List Json}
    (h : readItems fuel text = some (items, rest)) :
    readValue (fuel + 1) ('[' :: text) = some (array items, rest) := by
  rw [← readItems_congr (skipSpace_skipSpace text)] at h
  have hopen : skipSpace ('[' :: text) = '[' :: text := skipSpace_cons rfl text
  simp only [readValue, hopen]
  split
  · rename_i heq
    rw [heq, readItems_bracket] at h
    contradiction
  · rw [h]
    rfl

/-! ## Objects -/

/-- A text starts with a member: after its name and a colon its value is read, and `after` is the
text that is left. -/
def StartsWithMember (fuel : Nat) (text : List Char) (name : Option String) (value : Json)
    (after : List Char) : Prop :=
  ∃ quoted colon start, skipSpace text = '"' :: quoted ∧ readString quoted = some (name, colon) ∧
    skipSpace colon = ':' :: start ∧ readValue fuel start = some (value, after)

/-- The last member of an object is read where the closing bracket follows it. -/
theorem readMembers_last {fuel : Nat} {text after rest : List Char} {name : Option String}
    {value : Json} (hmember : StartsWithMember fuel text name value after)
    (hafter : skipSpace after = '}' :: rest) :
    readMembers (fuel + 1) text = some ([(name, value)], rest) := by
  obtain ⟨quoted, colon, start, hquote, hname, hcolon, hvalue⟩ := hmember
  simp [readMembers, hquote, hname, hcolon, hvalue, hafter]

/-- A member of an object is read where a comma and further members follow it. -/
theorem readMembers_cons {fuel : Nat} {text after others rest : List Char} {name : Option String}
    {value : Json} {members : List (Option String × Json)}
    (hmember : StartsWithMember fuel text name value after)
    (hafter : skipSpace after = ',' :: others)
    (hothers : readMembers fuel others = some (members, rest)) :
    readMembers (fuel + 1) text = some ((name, value) :: members, rest) := by
  obtain ⟨quoted, colon, start, hquote, hname, hcolon, hvalue⟩ := hmember
  simp [readMembers, hquote, hname, hcolon, hvalue, hafter, hothers]

/-- No members are read where the closing bracket stands. -/
theorem readMembers_bracket (fuel : Nat) (text : List Char) :
    readMembers fuel ('}' :: text) = none := by
  cases fuel with
  | zero => simp only [readMembers]
  | succ fuel => rfl

/-- An object none of whose members has a foreign name is no foreign value. -/
theorem ofMembers_map_some (members : List (String × Json)) :
    ofMembers (members.map fun member => (some member.1, member.2)) = object members := by
  have hmap : (members.map fun member => (some member.1, member.2)).mapM
      (fun member => member.1.map fun name => (name, member.2)) = some members := by
    induction members with
    | nil => rfl
    | cons member members ih => simp [ih]
  rw [ofMembers, hmap]

/-- An object with members is read by reading the members. -/
theorem readValue_object {fuel : Nat} {text rest : List Char} {members : List (String × Json)}
    (h : readMembers fuel text =
      some (members.map fun member => (some member.1, member.2), rest)) :
    readValue (fuel + 1) ('{' :: text) = some (object members, rest) := by
  rw [← readMembers_congr (skipSpace_skipSpace text)] at h
  have hopen : skipSpace ('{' :: text) = '{' :: text := skipSpace_cons rfl text
  simp only [readValue, hopen]
  split
  · rename_i heq
    rw [heq, readMembers_bracket] at h
    contradiction
  · rw [h, Option.map_some, ofMembers_map_some]

end StoreTrial.Json
