import StoreTrial.Json.Record

/-!
# Members in another order

`Reordered json json'` says that `json'` is `json` with the members of the objects in it, at any
depth, in another order. An object in which no name stands twice has the same fields in every order
of its members (`membersNamed_of_perm`), so the fields of a reordered object are the fields of the
object, each of them reordered at most (`Reordered.exists_fields?`).
-/

namespace StoreTrial.Json

mutual

/-- `Reordered json json'` holds if the two differ in the order of members of objects only. -/
inductive Reordered : Json → Json → Prop where
  /-- Nothing needs to be in another order. -/
  | refl (json : Json) : Reordered json json
  /-- The items of an array stay in order, and each may be reordered. -/
  | inArray {items items' : List Json} : ReorderedItems items items' →
      Reordered (array items) (array items')
  /-- The value of each member of an object may be reordered, and then the members may be. -/
  | inObject {members members' members'' : List (String × Json)} :
      members'.map (·.1) = members.map (·.1) →
      ReorderedItems (members.map (·.2)) (members'.map (·.2)) → members'.Perm members'' →
      Reordered (object members) (object members'')

/-- The values of two lists are reordered one by one. -/
inductive ReorderedItems : List Json → List Json → Prop where
  /-- There are no values. -/
  | nil : ReorderedItems [] []
  /-- The first values are reordered, and so are the others. -/
  | cons {item item' : Json} {items items' : List Json} : Reordered item item' →
      ReorderedItems items items' → ReorderedItems (item :: items) (item' :: items')

end

/-- Every value of a list is the value itself reordered. -/
theorem ReorderedItems.refl (items : List Json) : ReorderedItems items items := by
  induction items with
  | nil => exact .nil
  | cons item items ih => exact .cons (.refl item) ih

/-- Values stay as many as they are when each of them is reordered. -/
theorem ReorderedItems.length_eq {items items' : List Json} (h : ReorderedItems items items') :
    items'.length = items.length := by
  induction items generalizing items' with
  | nil =>
    cases h
    rfl
  | cons item items ih =>
    obtain _ | ⟨_, hitems⟩ := h
    rw [List.length_cons, List.length_cons, ih hitems]

/-- A reordered number is the number. -/
theorem Reordered.eq_number {n : Nat} {json : Json} (h : Reordered (number n) json) :
    json = number n := by
  cases h
  rfl

/-- A reordered string is the string. -/
theorem Reordered.eq_string {s : String} {json : Json} (h : Reordered (string s) json) :
    json = string s := by
  cases h
  rfl

/-- A reordered array is an array of reordered items. -/
theorem Reordered.exists_items {items : List Json} {json : Json}
    (h : Reordered (array items) json) :
    ∃ items', json = array items' ∧ ReorderedItems items items' := by
  cases h with
  | refl => exact ⟨items, rfl, .refl items⟩
  | inArray hitems => exact ⟨_, rfl, hitems⟩

/-- A reordered object has the names of the object and their values reordered, in some order. -/
theorem Reordered.exists_members {members : List (String × Json)} {json : Json}
    (h : Reordered (object members) json) :
    ∃ values members', ReorderedItems (members.map (·.2)) values ∧
      ((members.map (·.1)).zip values).Perm members' ∧ json = object members' := by
  have hzip : ∀ members : List (String × Json),
      (members.map (·.1)).zip (members.map (·.2)) = members := by
    intro members
    rw [List.zip_map', List.map_id']
  cases h with
  | refl => exact ⟨members.map (·.2), members, .refl _, by rw [hzip], rfl⟩
  | inObject hnames hvalues hperm =>
    refine ⟨_, _, hvalues, ?_, rfl⟩
    rwa [← hnames, hzip]

/-- A reordered object with one member has that member with its value reordered. -/
theorem Reordered.exists_member {name : String} {value json : Json}
    (h : Reordered (object [(name, value)]) json) :
    ∃ value', Reordered value value' ∧ json = object [(name, value')] := by
  obtain ⟨values, members', hvalues, hperm, rfl⟩ := h.exists_members
  obtain _ | ⟨hvalue, _ | _⟩ := hvalues
  have hmember : members' = [(name, _)] := List.perm_singleton.mp hperm.symm
  exact ⟨_, hvalue, by rw [hmember]⟩

/-! ## Fields -/

/-- Of members with distinct names, those with one name are the same in every order. -/
theorem filter_eq_of_perm {members members' : List (String × Json)}
    (hnames : (members.map (·.1)).Nodup) (hperm : members.Perm members') (name : String) :
    members'.filter (·.1 == name) = members.filter (·.1 == name) := by
  -- Two different members with one name would be two with equal names.
  have hfew : ∀ members : List (String × Json), (members.map (·.1)).Nodup →
      (members.filter (·.1 == name)).Pairwise fun _ _ => False := by
    intro members hnames
    rw [List.pairwise_filter]
    refine (List.pairwise_map.mp hnames).imp fun hne ha hb => hne ?_
    rw [eq_of_beq ha, eq_of_beq hb]
  have hnames' : (members'.map (·.1)).Nodup := ((hperm.map _).nodup_iff).mp hnames
  exact List.Perm.eq_of_pairwise (fun _ _ _ _ h => h.elim) (hfew _ hnames') (hfew _ hnames)
    (hperm.symm.filter _)

/-- Members with distinct names have the same fields in every order. -/
theorem membersNamed_of_perm {members members' : List (String × Json)}
    (hnames : (members.map (·.1)).Nodup) (hperm : members.Perm members') (names : List String)
    (closed : Bool) :
    membersNamed names closed members' = membersNamed names closed members := by
  simp only [membersNamed, filter_eq_of_perm hnames hperm, hperm.any_eq]

/-- Where names stand once each, one member has each of the names. -/
theorem map_filter_zip {names : List String} {values : List Json} (hnames : names.Nodup)
    (hlength : values.length = names.length) :
    (names.map fun name => ((names.zip values).filter (·.1 == name)).map (·.2)) =
      values.map fun value => [value] := by
  induction names generalizing values with
  | nil =>
    rw [List.eq_nil_of_length_eq_zero hlength]
    rfl
  | cons first names ih =>
    obtain ⟨value, values, rfl⟩ := List.exists_cons_of_length_eq_add_one hlength
    obtain ⟨hfirst, hnames⟩ := List.nodup_cons.mp hnames
    have hothers : (names.zip values).filter (·.1 == first) = [] := by
      refine List.filter_eq_nil_iff.mpr fun member hmember heq => hfirst ?_
      rw [← eq_of_beq heq]
      exact (List.of_mem_zip hmember).1
    have hown : (((first, value) :: names.zip values).filter (·.1 == first)).map (·.2) =
        [value] := by
      simp [hothers]
    have hrest : ∀ name ∈ names,
        (((first, value) :: names.zip values).filter (·.1 == name)).map (·.2) =
          ((names.zip values).filter (·.1 == name)).map (·.2) := by
      intro name hname
      have hne : first ≠ name := fun heq => hfirst (heq ▸ hname)
      simp [hne]
    rw [List.zip_cons_cons, List.map_cons, hown, List.map_congr_left hrest,
      ih hnames (Nat.succ.inj hlength)]
    rfl

/-- Members with the names of fields have the values of those fields, and no field besides them has
a value. -/
theorem membersNamed_zip {names absent : List String} {values : List Json} (closed : Bool)
    (hnames : (names ++ absent).Nodup) (hlength : values.length = names.length) :
    membersNamed (names ++ absent) closed (names.zip values) =
      some (values.map some ++ absent.map fun _ => none) := by
  obtain ⟨hpresent, -, hapart⟩ := List.nodup_append.mp hnames
  have habsent : ∀ name ∈ absent, ((names.zip values).filter (·.1 == name)).map (·.2) = [] := by
    intro name hname
    rw [List.map_eq_nil_iff, List.filter_eq_nil_iff]
    intro member hmember heq
    exact hapart _ (List.of_mem_zip hmember).1 _ hname (eq_of_beq heq)
  have hvalues : ((names ++ absent).map fun name =>
      ((names.zip values).filter (·.1 == name)).map (·.2)) =
        (values.map fun value => [value]) ++ absent.map fun _ => [] := by
    rw [List.map_append, map_filter_zip hpresent hlength, List.map_congr_left habsent]
  have honce : ((values.map fun value => [value]) ++ absent.map fun _ => []).any
      (fun values => 1 < values.length) = false := by simp
  have hknown : ((names.zip values).any fun member => !(names ++ absent).contains member.1) =
      false := by
    rw [List.any_eq_false]
    intro member hmember
    simp [(List.of_mem_zip hmember).1]
  simp only [membersNamed, hvalues, honce, hknown, Bool.and_false, Bool.false_eq_true, if_false,
    List.map_append, List.map_map]
  rfl

/-- A reordered object has the fields of the object, with their values reordered. -/
theorem Reordered.exists_fields? {members : List (String × Json)} {json : Json}
    (h : Reordered (object members) json) (absent : List String)
    (hnames : (members.map (·.1) ++ absent).Nodup) :
    ∃ values, ReorderedItems (members.map (·.2)) values ∧
      ∀ closed, fields? (members.map (·.1) ++ absent) closed json =
        some (values.map some ++ absent.map fun _ => none) := by
  obtain ⟨values, members', hvalues, hperm, rfl⟩ := h.exists_members
  have hlength : values.length = (members.map (·.1)).length := by
    rw [hvalues.length_eq, List.length_map, List.length_map]
  have hdistinct : (((members.map (·.1)).zip values).map (·.1)).Nodup := by
    rw [List.map_fst_zip (Nat.le_of_eq hlength.symm)]
    exact (List.nodup_append.mp hnames).1
  refine ⟨values, hvalues, fun closed => ?_⟩
  rw [fields?, membersNamed_of_perm hdistinct hperm, membersNamed_zip closed hnames hlength]

end StoreTrial.Json
