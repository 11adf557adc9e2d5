import StoreTrial.Proofs.Json.Leaves
import StoreTrial.Proofs.Json.Nesting

/-!
# What is printed is read back

A printed value is read back as that value, in every layout that has only blank space between the
parts (`parse?_render`), hence in both layouts in use (`parse?_compact`, `parse?_pretty`). The
induction is on the value, and what is carried through it is `Legible`: whatever follows, the parser
reads the value and stops behind it. Twice the length of the printed text is depth enough.
-/

namespace StoreTrial.Json

/-- What holds of the values without parts, and of an array or object if it holds of the parts,
holds of every value. -/
@[elab_as_elim]
theorem inductionOnParts {motive : Json → Prop} (json : Json) (null : motive null)
    (bool : ∀ b, motive (bool b)) (number : ∀ n, motive (number n))
    (string : ∀ s, motive (string s))
    (array : ∀ items, (∀ item ∈ items, motive item) → motive (array items))
    (object : ∀ members, (∀ member ∈ members, motive member.2) → motive (object members))
    (foreign : motive foreign) : motive json :=
  match json with
  | .null => null
  | .bool b => bool b
  | .number n => number n
  | .string s => string s
  | .array items => array items fun item _ =>
    inductionOnParts item null bool number string array object foreign
  | .object members => object members fun member hmember =>
    have : sizeOf member < sizeOf members := List.sizeOf_lt_of_mem hmember
    have : sizeOf member.2 < sizeOf member := by
      obtain ⟨name, value⟩ := member
      simp only [Prod.mk.sizeOf_spec]
      omega
    inductionOnParts member.2 null bool number string array object foreign
  | .foreign => foreign

/-! ## Layouts -/

/-- A layout with nothing but blank space between the parts of a value. -/
structure Layout.Blank (layout : Layout) : Prop where
  /-- What stands before members is blank. -/
  lineBreak : ∀ depth, Json.Blank (layout.lineBreak depth)
  /-- What stands before the value of a member is blank. -/
  gap : Json.Blank layout.gap

/-- The layout without blank space is blank. -/
theorem Layout.blank_compact : Layout.compact.Blank :=
  ⟨fun _ _ hc => absurd hc List.not_mem_nil, fun _ hc => absurd hc List.not_mem_nil⟩

/-- The layout with a line for each member is blank. -/
theorem Layout.blank_pretty : Layout.pretty.Blank := by
  constructor
  · intro depth c hc
    rcases List.mem_cons.mp hc with rfl | hc
    · rfl
    · rw [(List.mem_replicate.mp hc).2]
      rfl
  · intro c hc
    rw [List.mem_singleton.mp hc]
    rfl

/-- A number ends where blank space stands. -/
theorem Blank.ends_append {blank rest : List Char} (h : Blank blank) (hrest : Ends rest) :
    Ends (blank ++ rest) := by
  cases blank with
  | nil => exact hrest
  | cons c blank =>
    have hspace : isSpace c = true := h c List.mem_cons_self
    have hmark : ((c = ' ' ∨ c = '\n') ∨ c = '\t') ∨ c = '\r' := by simpa [isSpace] using hspace
    rcases hmark with ((rfl | rfl) | rfl) | rfl
    all_goals exact ends_cons (by decide) _

/-! ## Values -/

/-- A value that is read back from what is printed for it, at every depth, and with nothing that
follows it read. -/
def Legible (layout : Layout) (json : Json) : Prop :=
  ∀ (depth fuel : Nat) (rest : List Char), 2 * (render layout depth json).length ≤ fuel →
    Ends rest → readValue fuel (render layout depth json ++ rest) = some (json, rest)

section

variable {layout : Layout}

/-- Every value is printed with at least one character. -/
theorem length_render_pos (depth : Nat) (json : Json) : 0 < (render layout depth json).length := by
  rw [List.length_pos_iff]
  cases json with
  | null => simp [render]
  | bool b => cases b <;> simp [render]
  | number n =>
    rw [render]
    exact Nat.toDigits_ne_nil
  | string s => simp [render, quote]
  | array items => cases items <;> simp [render]
  | object members => cases members <;> simp [render]
  | foreign => simp [render]

/-- There is depth for one step at least, since something is printed. -/
theorem legible_of_succ {json : Json}
    (h : ∀ (depth fuel : Nat) (rest : List Char), 2 * (render layout depth json).length ≤ fuel + 1 →
      Ends rest → readValue (fuel + 1) (render layout depth json ++ rest) = some (json, rest)) :
    Legible layout json := by
  intro depth fuel rest hfuel hrest
  have hpos : 0 < (render layout depth json).length := length_render_pos depth json
  obtain ⟨fuel, rfl⟩ : ∃ n, fuel = n + 1 := Nat.exists_eq_add_one.mpr (by omega)
  exact h depth fuel rest hfuel hrest

/-- The value `null` is read back. -/
theorem legible_null : Legible layout null := by
  refine legible_of_succ fun depth fuel rest _ _ => ?_
  rw [render]
  rfl

/-- A truth value is read back. -/
theorem legible_bool (b : Bool) : Legible layout (bool b) := by
  refine legible_of_succ fun depth fuel rest _ _ => ?_
  cases b with
  | false =>
    rw [render]
    rfl
  | true =>
    rw [render]
    rfl

/-- A natural number is read back. -/
theorem legible_number (n : Nat) : Legible layout (number n) := by
  refine legible_of_succ fun depth fuel rest _ hrest => ?_
  obtain ⟨c, text, hdigits, hc⟩ := exists_toDigits_eq_cons n
  have hread := readUnsigned_toDigits n hrest
  rw [hdigits, List.cons_append] at hread
  rw [render, hdigits, List.cons_append, readValue_digit hc, hread]

/-- A string is read back. -/
theorem legible_string (s : String) : Legible layout (string s) := by
  refine legible_of_succ fun depth fuel rest _ _ => ?_
  obtain ⟨text, hquote, hread⟩ := readString_quote s rest
  rw [render, hquote, readValue_quotation hread]

/-- A foreign value is printed as a number that is read back as foreign. -/
theorem legible_foreign : Legible layout foreign := by
  refine legible_of_succ fun depth fuel rest _ hrest => ?_
  have hread : readUnsigned ('0' :: rest) = some (number 0, rest) := readUnsigned_toDigits 0 hrest
  have hminus : readValue (fuel + 1) ('-' :: '0' :: rest) =
    (readUnsigned ('0' :: rest)).map fun result => (foreign, result.2) := rfl
  calc readValue (fuel + 1) (render layout depth foreign ++ rest)
      = readValue (fuel + 1) ('-' :: '0' :: rest) := by rw [render]; rfl
    _ = some (foreign, rest) := by rw [hminus, hread]; rfl

/-! ## Arrays -/

/-- What follows an item of an array: the other items, if there are any, and the closing bracket. -/
def itemsEnd (layout : Layout) (depth : Nat) (items : List Json) (rest : List Char) : List Char :=
  renderItems layout depth items ++ (layout.lineBreak depth ++ ']' :: rest)

/-- A number ends where the last item of an array does, and where a further one follows. -/
theorem ends_itemsEnd (hblank : layout.Blank) (depth : Nat) (items : List Json)
    (rest : List Char) : Ends (itemsEnd layout depth items rest) := by
  unfold itemsEnd
  cases items with
  | nil =>
    rw [renderItems, List.nil_append]
    exact (hblank.lineBreak depth).ends_append (ends_cons (by decide) rest)
  | cons item items =>
    rw [renderItems, List.cons_append, List.cons_append, List.cons_append]
    exact ends_cons (by decide) _

/-- The items of an array are read back if each of them is. -/
theorem readItems_render (hblank : layout.Blank) (depth : Nat) (rest : List Char)
    {item : Json} {items : List Json} {fuel : Nat} (hitem : Legible layout item)
    (hitems : ∀ item ∈ items, Legible layout item)
    (hfuel : 2 * ((render layout (depth + 1) item).length +
      (renderItems layout depth items).length) < fuel) :
    readItems fuel (render layout (depth + 1) item ++ itemsEnd layout depth items rest) =
      some (item :: items, rest) := by
  -- Each item takes one step of the depth, and the comma before the next one pays for it.
  induction items generalizing item fuel with
  | nil =>
    obtain ⟨fuel, rfl⟩ : ∃ n, fuel = n + 1 := Nat.exists_eq_add_one.mpr (by omega)
    have hread := hitem (depth + 1) fuel _ (by omega) (ends_itemsEnd hblank depth [] rest)
    refine readItems_last hread ?_
    rw [itemsEnd, renderItems, List.nil_append, (hblank.lineBreak depth).skipSpace_append]
    exact skipSpace_cons rfl rest
  | cons next items ih =>
    obtain ⟨fuel, rfl⟩ : ∃ n, fuel = n + 1 := Nat.exists_eq_add_one.mpr (by omega)
    obtain ⟨hnext, hitems⟩ := List.forall_mem_cons.mp hitems
    have hread := hitem (depth + 1) fuel _ (by omega)
      (ends_itemsEnd hblank depth (next :: items) rest)
    have hlength : (renderItems layout depth (next :: items)).length =
        1 + (layout.lineBreak (depth + 1)).length + (render layout (depth + 1) next).length +
          (renderItems layout depth items).length := by
      simp only [renderItems, List.length_cons, List.length_append]
      omega
    have hafter : skipSpace (itemsEnd layout depth (next :: items) rest) =
        ',' :: (layout.lineBreak (depth + 1) ++
          (render layout (depth + 1) next ++ itemsEnd layout depth items rest)) := by
      simp only [itemsEnd, renderItems, List.cons_append, List.append_assoc]
      exact skipSpace_cons rfl _
    refine readItems_cons hread hafter ?_
    rw [readItems_congr ((hblank.lineBreak (depth + 1)).skipSpace_append _)]
    exact ih hnext hitems (by omega)

/-- An array is read back if its items are. -/
theorem legible_array (hblank : layout.Blank) {items : List Json}
    (h : ∀ item ∈ items, Legible layout item) : Legible layout (array items) := by
  refine legible_of_succ fun depth fuel rest hfuel _ => ?_
  cases items with
  | nil =>
    rw [render]
    rfl
  | cons item items =>
    obtain ⟨hitem, hitems⟩ := List.forall_mem_cons.mp h
    have hrender : render layout depth (array (item :: items)) ++ rest =
        '[' :: (layout.lineBreak (depth + 1) ++
          (render layout (depth + 1) item ++ itemsEnd layout depth items rest)) := by
      simp [render, itemsEnd]
    simp only [render, List.length_cons, List.length_append] at hfuel
    rw [hrender]
    refine readValue_array ?_
    rw [readItems_congr ((hblank.lineBreak (depth + 1)).skipSpace_append _)]
    exact readItems_render hblank depth rest hitem hitems (by omega)

/-! ## Objects -/

/-- What follows a member of an object: the other members, if there are any, and the closing
bracket. -/
def membersEnd (layout : Layout) (depth : Nat) (members : List (String × Json))
    (rest : List Char) : List Char :=
  renderMembers layout depth members ++ (layout.lineBreak depth ++ '}' :: rest)

/-- A number ends where the last member of an object does, and where a further one follows. -/
theorem ends_membersEnd (hblank : layout.Blank) (depth : Nat) (members : List (String × Json))
    (rest : List Char) : Ends (membersEnd layout depth members rest) := by
  unfold membersEnd
  cases members with
  | nil =>
    rw [renderMembers, List.nil_append]
    exact (hblank.lineBreak depth).ends_append (ends_cons (by decide) rest)
  | cons member members =>
    rw [renderMembers, List.cons_append, List.cons_append, List.cons_append]
    exact ends_cons (by decide) _

/-- A member is read back if its value is. -/
theorem startsWithMember_render (hblank : layout.Blank) {member : String × Json}
    (hvalue : Legible layout member.2) {depth fuel : Nat} {after : List Char}
    (hfuel : 2 * (renderMember layout depth member).length ≤ fuel) (hafter : Ends after) :
    StartsWithMember fuel (renderMember layout depth member ++ after) (some member.1) member.2
      after := by
  obtain ⟨name, value⟩ := member
  have hlength : (renderMember layout depth (name, value)).length =
      (quote name).length + 1 + layout.gap.length + (render layout (depth + 1) value).length := by
    simp only [renderMember, List.length_append, List.length_cons]
    omega
  have hvalueFuel : 2 * (render layout (depth + 1) value).length ≤ fuel := by omega
  obtain ⟨text, hquote, hread⟩ := readString_quote name
    (':' :: (layout.gap ++ (render layout (depth + 1) value ++ after)))
  have hrender : renderMember layout depth (name, value) ++ after = '"' :: text := by
    rw [← hquote]
    simp [renderMember]
  refine ⟨text, _, _, ?_, hread, skipSpace_cons rfl _, ?_⟩
  · rw [hrender, skipSpace_cons rfl]
  · rw [readValue_congr (hblank.gap.skipSpace_append _)]
    exact hvalue (depth + 1) fuel after hvalueFuel hafter

/-- The members of an object are read back if the value of each of them is. -/
theorem readMembers_render (hblank : layout.Blank) (depth : Nat) (rest : List Char)
    {member : String × Json} {members : List (String × Json)} {fuel : Nat}
    (hmember : Legible layout member.2) (hmembers : ∀ member ∈ members, Legible layout member.2)
    (hfuel : 2 * ((renderMember layout depth member).length +
      (renderMembers layout depth members).length) < fuel) :
    readMembers fuel (renderMember layout depth member ++ membersEnd layout depth members rest) =
      some ((member :: members).map fun member => (some member.1, member.2), rest) := by
  induction members generalizing member fuel with
  | nil =>
    obtain ⟨fuel, rfl⟩ : ∃ n, fuel = n + 1 := Nat.exists_eq_add_one.mpr (by omega)
    have hfirst : 2 * (renderMember layout depth member).length ≤ fuel := by omega
    have hread := startsWithMember_render hblank hmember hfirst
      (ends_membersEnd hblank depth [] rest)
    refine readMembers_last hread ?_
    rw [membersEnd, renderMembers, List.nil_append, (hblank.lineBreak depth).skipSpace_append]
    exact skipSpace_cons rfl rest
  | cons next members ih =>
    obtain ⟨fuel, rfl⟩ : ∃ n, fuel = n + 1 := Nat.exists_eq_add_one.mpr (by omega)
    obtain ⟨hnext, hmembers⟩ := List.forall_mem_cons.mp hmembers
    have hfirst : 2 * (renderMember layout depth member).length ≤ fuel := by omega
    have hread := startsWithMember_render hblank hmember hfirst
      (ends_membersEnd hblank depth (next :: members) rest)
    have hlength : (renderMembers layout depth (next :: members)).length =
        1 + (layout.lineBreak (depth + 1)).length + (renderMember layout depth next).length +
          (renderMembers layout depth members).length := by
      simp only [renderMembers, List.length_cons, List.length_append]
      omega
    have hafter : skipSpace (membersEnd layout depth (next :: members) rest) =
        ',' :: (layout.lineBreak (depth + 1) ++
          (renderMember layout depth next ++ membersEnd layout depth members rest)) := by
      simp only [membersEnd, renderMembers, List.cons_append, List.append_assoc]
      exact skipSpace_cons rfl _
    refine readMembers_cons hread hafter ?_
    rw [readMembers_congr ((hblank.lineBreak (depth + 1)).skipSpace_append _)]
    exact ih hnext hmembers (by omega)

/-- An object is read back if the values of its members are. -/
theorem legible_object (hblank : layout.Blank) {members : List (String × Json)}
    (h : ∀ member ∈ members, Legible layout member.2) : Legible layout (object members) := by
  refine legible_of_succ fun depth fuel rest hfuel _ => ?_
  cases members with
  | nil =>
    rw [render]
    rfl
  | cons member members =>
    obtain ⟨hmember, hmembers⟩ := List.forall_mem_cons.mp h
    have hrender : render layout depth (object (member :: members)) ++ rest =
        '{' :: (layout.lineBreak (depth + 1) ++
          (renderMember layout depth member ++ membersEnd layout depth members rest)) := by
      simp [render, membersEnd]
    simp only [render, List.length_cons, List.length_append] at hfuel
    rw [hrender]
    refine readValue_object ?_
    rw [readMembers_congr ((hblank.lineBreak (depth + 1)).skipSpace_append _)]
    exact readMembers_render hblank depth rest hmember hmembers (by omega)

/-! ## Whole texts -/

/-- Every value is read back from what is printed for it. -/
theorem legible (hblank : layout.Blank) (json : Json) : Legible layout json := by
  induction json using inductionOnParts with
  | null => exact legible_null
  | bool b => exact legible_bool b
  | number n => exact legible_number n
  | string s => exact legible_string s
  | array items ih => exact legible_array hblank ih
  | object members ih => exact legible_object hblank ih
  | foreign => exact legible_foreign

/-- The text of a value denotes that value, also with blank space after it. -/
theorem parse?_render_append (hblank : layout.Blank) (json : Json) {after : List Char}
    (hafter : Blank after) :
    parse? (String.ofList (render layout 0 json ++ after)) = some json := by
  have hends : Ends after := by
    have hnil : Ends [] := fun c hc => absurd hc (by simp)
    have := hafter.ends_append hnil
    rwa [List.append_nil] at this
  have hread : readValue (2 * (render layout 0 json ++ after).length + 1)
      (render layout 0 json ++ after) = some (json, after) := by
    refine legible hblank json 0 _ after ?_ hends
    rw [List.length_append]
    omega
  have hspace : skipSpace after = [] := by
    have := hafter.skipSpace_append []
    rwa [List.append_nil] at this
  simp only [parse?, String.toList_ofList, hread, hspace]
  rfl

/-- The text of a value denotes that value. -/
theorem parse?_render (hblank : layout.Blank) (json : Json) :
    parse? (String.ofList (render layout 0 json)) = some json := by
  have hnone : Blank [] := fun c hc => absurd hc List.not_mem_nil
  have := parse?_render_append hblank json hnone
  rwa [List.append_nil] at this

end

/-- The text of a value without blank space denotes that value. -/
theorem parse?_compact (json : Json) : parse? json.compact = some json :=
  parse?_render Layout.blank_compact json

/-- The text of a value with a line for each member denotes that value. -/
theorem parse?_pretty (json : Json) : parse? json.pretty = some json :=
  parse?_render Layout.blank_pretty json

/-- The text of a value with a line for each member denotes that value, also as a line of its
own. -/
theorem parse?_pretty_lineFeed (json : Json) : parse? (json.pretty ++ "\n") = some json := by
  have hlineFeed : Blank ['\n'] := by
    intro c hc
    rw [List.mem_singleton.mp hc]
    rfl
  have htext : json.pretty ++ "\n" = String.ofList (render .pretty 0 json ++ ['\n']) := by
    rw [String.ofList_append]
    rfl
  rw [htext]
  exact parse?_render_append Layout.blank_pretty json hlineFeed

end StoreTrial.Json
