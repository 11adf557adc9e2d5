/-!
# The first fault decides

Streams are read and written entry by entry, and the first entry that is refused ends the run. Two
lemmas say what that means for a list of entries: all are accepted and the result holds what each of
them gave (`mapM_eq_ok_iff`), or the result is the fault of one of them and all before it are
accepted (`mapM_eq_error_iff`). Entries that are counted off are named by their numbers
(`mapM_range_eq_ok_iff`, `mapM_range_eq_error_iff`).
-/

namespace StoreTrial

section

variable {ε α β : Type} {f : α → Except ε β}

/-- What follows an accepted entry decides. -/
theorem mapM_cons_of_ok {x : α} {y : β} (h : f x = .ok y) (l : List α) :
    (x :: l).mapM f = (l.mapM f).map (y :: ·) := by
  rw [List.mapM_cons, h]
  rfl

/-- An entry that is refused decides. -/
theorem mapM_cons_of_error {x : α} {e : ε} (h : f x = .error e) (l : List α) :
    (x :: l).mapM f = .error e := by
  rw [List.mapM_cons, h]
  rfl

/-- A list is accepted with a result exactly when each entry is accepted with its part of it. -/
theorem mapM_eq_ok_iff {l : List α} {ys : List β} :
    l.mapM f = .ok ys ↔ l.map f = ys.map .ok := by
  induction l generalizing ys with
  | nil => cases ys <;> simp [pure, Except.pure]
  | cons x l ih =>
    cases hx : f x with
    | error e =>
      rw [mapM_cons_of_error hx, List.map_cons, hx]
      cases ys <;> simp
    | ok y =>
      rw [mapM_cons_of_ok hx, List.map_cons, hx]
      cases hl : l.mapM f with
      | error e =>
        -- The rest is refused, so by induction it gives no list of results at all.
        have hne : ∀ zs : List β, l.map f ≠ zs.map .ok := by
          intro zs hzs
          rw [ih.mpr hzs] at hl
          contradiction
        cases ys <;> simp [Except.map, hne]
      | ok zs =>
        have hmap : l.map f = zs.map .ok := ih.mp hl
        rw [hmap]
        cases ys with
        | nil => simp [Except.map]
        | cons y' ys =>
          have hinj : zs.map (Except.ok (ε := ε)) = ys.map .ok ↔ zs = ys :=
            List.map_inj_right fun _ _ h => Except.ok.inj h
          simp [Except.map, hinj]

/-- A list is accepted exactly when each of its entries is. -/
theorem exists_mapM_eq_ok_iff {l : List α} :
    (∃ ys, l.mapM f = .ok ys) ↔ ∀ x ∈ l, ∃ y, f x = .ok y := by
  induction l with
  | nil => simp [pure, Except.pure]
  | cons x l ih =>
    rw [List.forall_mem_cons, ← ih]
    cases hx : f x with
    | error e => simp [mapM_cons_of_error hx]
    | ok y =>
      rw [mapM_cons_of_ok hx]
      cases l.mapM f <;> simp [Except.map]

/-- A list is refused with a fault exactly when an entry is refused with that fault and all entries
before it are accepted. -/
theorem mapM_eq_error_iff {l : List α} {e : ε} :
    l.mapM f = .error e ↔ ∃ before x after, l = before ++ x :: after ∧
      (∀ y ∈ before, ∃ z, f y = .ok z) ∧ f x = .error e := by
  constructor
  · intro h
    induction l with
    | nil => simp [pure, Except.pure] at h
    | cons x l ih =>
      cases hx : f x with
      | error e' =>
        rw [mapM_cons_of_error hx] at h
        cases h
        exact ⟨[], x, l, rfl, by simp, hx⟩
      | ok y =>
        rw [mapM_cons_of_ok hx] at h
        cases hl : l.mapM f with
        | ok ys =>
          rw [hl] at h
          cases h
        | error e' =>
          rw [hl] at h
          cases h
          obtain ⟨before, x', after, rfl, hbefore, hx'⟩ := ih hl
          refine ⟨x :: before, x', after, rfl, ?_, hx'⟩
          exact List.forall_mem_cons.mpr ⟨⟨y, hx⟩, hbefore⟩
  · rintro ⟨before, x, after, rfl, hbefore, hx⟩
    obtain ⟨ys, hys⟩ := exists_mapM_eq_ok_iff.mpr hbefore
    rw [List.mapM_append, hys, mapM_cons_of_error hx]
    rfl

end

section

variable {ε β : Type} {f : Nat → Except ε β} {n : Nat}

/-- Counted entries are accepted with a result exactly when each is accepted with its part of it. -/
theorem mapM_range_eq_ok_iff {ys : List β} :
    (List.range n).mapM f = .ok ys ↔
      ys.length = n ∧ ∀ i < n, ∃ y, ys[i]? = some y ∧ f i = .ok y := by
  rw [mapM_eq_ok_iff]
  constructor
  · intro hmap
    have hlength : ys.length = n := by simpa using (congrArg List.length hmap).symm
    refine ⟨hlength, fun i hi => ?_⟩
    have hi' : i < ys.length := by rwa [hlength]
    have hentry := congrArg (·[i]?) hmap
    simp only [List.getElem?_map, List.getElem?_range hi, List.getElem?_eq_getElem hi',
      Option.map_some, Option.some.injEq] at hentry
    exact ⟨ys[i], List.getElem?_eq_getElem hi', hentry⟩
  · rintro ⟨hlength, hentries⟩
    apply List.ext_getElem?
    intro i
    rw [List.getElem?_map, List.getElem?_map]
    by_cases hi : i < n
    · obtain ⟨y, hy, hf⟩ := hentries i hi
      rw [List.getElem?_range hi, hy, Option.map_some, Option.map_some, hf]
    · rw [List.getElem?_eq_none (by simpa using hi), List.getElem?_eq_none (by omega)]
      rfl

/-- Counted entries are refused with the fault of the first that is refused. -/
theorem mapM_range_eq_error_iff {e : ε} :
    (List.range n).mapM f = .error e ↔ ∃ i < n, (∀ j < i, ∃ y, f j = .ok y) ∧ f i = .error e := by
  rw [mapM_eq_error_iff]
  constructor
  · rintro ⟨before, i, after, hsplit, hbefore, hi⟩
    -- The entries before position `i` of the count are the numbers below `i`.
    have hat : ∀ j < n, (before ++ i :: after)[j]? = some j := by
      intro j hj
      rw [← hsplit, List.getElem?_range hj]
    have hlength : before.length < n := by
      have := congrArg List.length hsplit
      simp only [List.length_range, List.length_append, List.length_cons] at this
      omega
    have hvalue : before.length = i := by simpa using (hat before.length hlength).symm
    refine ⟨i, hvalue ▸ hlength, fun j hj => hbefore j ?_, hi⟩
    have hmem := hat j (by omega)
    rw [List.getElem?_append_left (by omega)] at hmem
    exact List.mem_of_getElem? hmem
  · rintro ⟨i, hi, hbefore, hfault⟩
    refine ⟨List.range i, i, List.range' (i + 1) (n - (i + 1)), ?_, ?_, hfault⟩
    · have hsplit : List.range' 0 n = List.range' 0 i ++ List.range' (0 + i) (n - i) := by
        rw [List.range'_append_1]
        congr 1
        omega
      have hfirst : n - i = (n - (i + 1)) + 1 := by omega
      rw [List.range_eq_range', hsplit, hfirst, List.range'_succ, ← List.range_eq_range',
        Nat.zero_add]
    · intro j hj
      exact hbefore j (List.mem_range.mp hj)

end

end StoreTrial
