import StoreTrial.Command.Request
import StoreTrial.Proofs.Command.Plan

/-!
# Command lines that assign values

A command line can be made of the name of a command and one argument for each option that is given,
with its value after `=` (`assign`). Such a line is read as what it was made from, whatever
characters the values hold, if no option is given twice (`ofArguments_assign`). A number is read
back from its digits (`readNumber_write`).
-/

namespace StoreTrial.Command

open Text

/-- The argument that gives an option, which is named first, a value. -/
def assign (assignment : String × String) : String :=
  "--" ++ assignment.1 ++ "=" ++ assignment.2

/-- `takes command name` is true when a command has an option of this name that takes a value. -/
def takes (command : CommandName) (name : String) : Bool :=
  (command.options.find? fun option => option.name == name).any (·.taking != .nothing)

/-- The name of an option has no `=` in it. -/
theorem notMem_name {command : CommandName} {option : CommandOption}
    (h : option ∈ command.options) : '=' ∉ option.name.toList := by
  have hall : ∀ command : CommandName, ∀ option ∈ command.options, '=' ∉ option.name.toList := by
    rintro (_ | _ | _) <;> decide
  exact hall command option h

/-- A text splits at the first `=` in it. -/
theorem takeWhile_dropWhile_append {before : List Char} (h : '=' ∉ before) (after : List Char) :
    (before ++ '=' :: after).takeWhile (· != '=') = before ∧
      (before ++ '=' :: after).dropWhile (· != '=') = '=' :: after := by
  have hbefore : ∀ c ∈ before, (c != '=') = true := by
    intro c hc
    rw [bne_iff_ne]
    rintro rfl
    exact h hc
  constructor
  · rw [List.takeWhile_append_of_pos hbefore, List.takeWhile_cons_of_neg (by simp),
      List.append_nil]
  · rw [List.dropWhile_append_of_pos hbefore, List.dropWhile_cons_of_neg (by simp)]

/-- An option that is not given yet is taken up after the others. -/
theorem add_of_lookup_eq_none {values : List (String × String)} {name : String}
    (h : values.lookup name = none) (value : String) :
    Given.add ⟨values, none⟩ name value = .ok ⟨values ++ [(name, value)], none⟩ := by
  simp only [Given.add, Given.has, Given.value?, h, Option.isSome_none, Bool.false_eq_true,
    if_false]

/-- A long name with a value is read as an option with that value. -/
theorem readLong_assign {command : CommandName} {name : String} (h : takes command name = true)
    (value : String) {given : Given} (hpending : given.pending = none) :
    readLong command.options (name.toList ++ '=' :: value.toList) given = given.add name value := by
  unfold takes at h
  rw [Option.any_eq_true] at h
  obtain ⟨option, hfind, htaking⟩ := h
  have hname : option.name = name := by simpa using List.find?_some hfind
  have hnotMem : '=' ∉ name.toList := hname ▸ notMem_name (List.mem_of_find?_eq_some hfind)
  obtain ⟨htake, hdrop⟩ := takeWhile_dropWhile_append hnotMem value.toList
  unfold readLong
  simp only [htake, hdrop, String.ofList_toList, hfind]
  -- A flag would be refused; both other kinds of option take the value.
  obtain ⟨optionName, letter, taking⟩ := option
  obtain rfl : optionName = name := hname
  cases taking with
  | nothing => contradiction
  | value | number =>
    simp only [Given.addNow, Given.settle, hpending]
    rfl

/-- An argument with a value for an option is read as that value. -/
theorem readOptions_assign {command : CommandName} {name : String} (h : takes command name = true)
    (value : String) {given : Given} (hpending : given.pending = none) (rest : List String) :
    readOptions command.options given (assign (name, value) :: rest) =
      given.add name value >>= fun given => readOptions command.options given rest := by
  have hargument : (assign (name, value)).toList =
      '-' :: '-' :: (name.toList ++ '=' :: value.toList) := by
    simp [assign]
  -- Something follows the dashes, if only the `=`, so this is not where the options end.
  obtain ⟨c, text, htext⟩ : ∃ c text, name.toList ++ '=' :: value.toList = c :: text :=
    List.exists_cons_of_ne_nil (by simp)
  rw [readOptions, hargument, ← readLong_assign h value hpending, htext]
  rfl

/-- Arguments with values for different options are read as those values. -/
theorem readOptions_map_assign {command : CommandName} {assignments : List (String × String)}
    (htakes : ∀ name ∈ assignments.map Prod.fst, takes command name = true)
    {values : List (String × String)} (hnodup : ((values ++ assignments).map Prod.fst).Nodup) :
    readOptions command.options ⟨values, none⟩ (assignments.map assign) =
      .ok ⟨values ++ assignments, none⟩ := by
  induction assignments generalizing values with
  | nil => simp [readOptions, Given.settle]
  | cons assignment assignments ih =>
    rw [List.map_cons] at htakes
    obtain ⟨hhead, htail⟩ := List.forall_mem_cons.mp htakes
    -- What is taken up next goes to the end of what was taken up before.
    rw [List.append_cons] at hnodup ⊢
    have hnew : values.lookup assignment.1 = none := by
      rw [List.append_assoc, List.map_append, List.nodup_append] at hnodup
      rw [List.lookup_eq_none_iff]
      intro earlier hearlier
      have hne := hnodup.2.2 earlier.1 (List.mem_map_of_mem hearlier) assignment.1 (by simp)
      simpa using hne.symm
    rw [List.map_cons, readOptions_assign hhead _ rfl, add_of_lookup_eq_none hnew]
    exact ih htail hnodup

/-- A command line that assigns values to different options is a request with those values, and for
no more reports than usual. -/
theorem ofArguments_assign {name : String} {command : CommandName}
    (hname : CommandName.ofName? name = some command) {assignments : List (String × String)}
    (htakes : ∀ name ∈ assignments.map Prod.fst, takes command name = true)
    (hnodup : (assignments.map Prod.fst).Nodup) {request : Request}
    (hrequest : command.request ⟨assignments, none⟩ = .ok request) :
    Invocation.ofArguments (name :: assignments.map assign) = .ok ⟨request, false⟩ := by
  have hverbose : assignments.lookup "verbose" = none := by
    rw [List.lookup_eq_none_iff]
    intro assignment hassignment
    rw [bne_iff_ne]
    intro heq
    -- The name of the flag is no name of an option that takes a value.
    have hflag : takes command "verbose" = false := by
      cases command <;> decide
    have htaken := htakes assignment.1 (List.mem_map_of_mem hassignment)
    rw [← heq, hflag] at htaken
    contradiction
  have hread : readOptions command.options .empty (assignments.map assign) =
      .ok ⟨assignments, none⟩ := readOptions_map_assign htakes hnodup
  have hcommand : Invocation.ofArguments (name :: assignments.map assign) =
      Invocation.ofCommand .empty command (assignments.map assign) := by
    unfold Invocation.ofArguments Invocation.read
    simp only [hname]
  rw [hcommand]
  simp only [Invocation.ofCommand, hread, hrequest, bind, Except.bind, pure, Except.pure, Given.has,
    Given.value?, hverbose]
  rfl

/-- A number is read back from its digits. -/
theorem readNumber_write (fault : String → ConfigFault) (n : UInt64) :
    readNumber fault (Decimal.write n.toNat) = .ok n :=
  readNumber_eq_ok_iff.mpr (Decimal.spells_write n.toNat)

end StoreTrial.Command
