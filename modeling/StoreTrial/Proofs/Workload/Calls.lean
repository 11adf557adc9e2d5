import StoreTrial.Workload.Generator

/-!
# What a generator does call by call

`Makes` says all that one call of a generator can do while operations are to come: a fresh write, a
write that repeats an entry of the history, or a read or a deletion of the key of such an entry, and
nothing but fresh writes before the start of the workload is done. `next_of_lt` and `next_of_ge` say
that a call is always of one of these ways or at the end of the workload. After any number of calls,
`after` is the generator and `made` are the operations made so far; the operation at a position is
the one that the call of that number made (`getElem?_made`).
-/

namespace StoreTrial.Workload.Generator

variable {σ : Type} [Draws σ]

/-! ## One call -/

/-- A source of choices offers the text as a token, in some state. -/
def Drawn (σ : Type) [Draws σ] (length : Nat) (text : String) : Prop :=
  ∃ source : σ, (Draws.token length source).1 = text

/-- A generator makes an operation and is then another generator. -/
inductive Makes (generator : Generator σ) : Operation → Generator σ → Prop where
  /-- A write whose key and value are drawn. -/
  | freshWrite (key value : String) (source : σ)
      (hkey : Drawn σ generator.length key) (hvalue : Drawn σ generator.length value) :
      Makes generator (.write key value)
        { generator with
          source
          emitted := generator.emitted + 1
          history := generator.history.push ⟨key, value⟩
          stats.freshWrites := generator.stats.freshWrites + 1 }
  /-- A write that repeats an earlier one. -/
  | reusedWrite (entry : Entry) (source : σ) (hseeded : generator.seeding ≤ generator.emitted)
      (hentry : entry ∈ generator.history) :
      Makes generator (.write entry.key entry.value)
        { generator with
          source
          emitted := generator.emitted + 1
          history := generator.history.push entry
          stats.reusedWrites := generator.stats.reusedWrites + 1 }
  /-- A read of the key of an earlier write. -/
  | read (entry : Entry) (source : σ) (hseeded : generator.seeding ≤ generator.emitted)
      (hentry : entry ∈ generator.history) :
      Makes generator (.read entry.key)
        { generator with
          source
          emitted := generator.emitted + 1
          stats.reads := generator.stats.reads + 1 }
  /-- A deletion of the key of an earlier write. -/
  | delete (entry : Entry) (source : σ) (hseeded : generator.seeding ≤ generator.emitted)
      (hentry : entry ∈ generator.history) :
      Makes generator (.delete entry.key)
        { generator with
          source
          emitted := generator.emitted + 1
          stats.deletes := generator.stats.deletes + 1 }

/-- The call counts an operation that was made. -/
def counted (made : Operation × Generator σ) : Generator σ :=
  { made.2 with emitted := made.2.emitted + 1 }

/-- A fresh write is one, whatever was drawn before it. -/
theorem makes_freshWrite (generator : Generator σ) (source : σ) :
    Makes generator (freshWrite { generator with source }).1
      (counted (freshWrite { generator with source })) :=
  .freshWrite _ _ _ ⟨_, rfl⟩ ⟨_, rfl⟩

/-- What is picked is a member of the history. -/
theorem pick_mem (generator : Generator σ) (h : 0 < generator.history.size) :
    (generator.pick h).1 ∈ generator.history := Array.getElem_mem _

/-- A generator whose start is done makes an operation in one of the four ways. -/
theorem makes_mixed {generator : Generator σ} (hseeded : generator.seeding ≤ generator.emitted) :
    Makes generator generator.mixed.1 (counted generator.mixed) := by
  unfold mixed
  split
  · rename_i h
    -- What is drawn changes the source only: the history to pick from is still the generator's.
    rcases Draws.kind generator.source with ⟨kind, source⟩
    cases kind with
    | read => exact .read _ _ hseeded (pick_mem { generator with source } h)
    | delete => exact .delete _ _ hseeded (pick_mem { generator with source } h)
    | write =>
      dsimp only
      rcases Draws.coin source with ⟨fresh, source'⟩
      cases fresh with
      | true => exact makes_freshWrite generator source'
      | false => exact .reusedWrite _ _ hseeded (pick_mem { generator with source := source' } h)
  · -- There is no history yet, and the only way on is a fresh write.
    exact makes_freshWrite generator generator.source

/-- The events of a call that makes an operation. -/
def eventsOfCall (generator : Generator σ) : List Event :=
  if generator.emitted = generator.seeding then
    [.seedingComplete generator.seeding generator.remaining]
  else []

/-- While operations are to come, a call makes one of them. -/
theorem next_of_lt {generator : Generator σ} (h : generator.emitted < generator.total) :
    ∃ operation rest, generator.next = ⟨some operation, generator.eventsOfCall, rest⟩ ∧
      Makes generator operation rest := by
  by_cases hseeding : generator.emitted < generator.seeding
  · refine ⟨_, _, ?_, makes_freshWrite generator generator.source⟩
    simp only [next, if_pos h, if_pos hseeding]
    rfl
  · refine ⟨_, _, ?_, makes_mixed (Nat.le_of_not_lt hseeding)⟩
    simp only [next, if_pos h, if_neg hseeding]
    rfl

/-- At the end of the workload, a call makes nothing and changes nothing. -/
theorem next_of_ge {generator : Generator σ} (h : generator.total ≤ generator.emitted) :
    generator.next = ⟨none, [], generator⟩ := if_neg (Nat.not_lt.mpr h)

/-- A call that makes nothing changes nothing. -/
theorem rest_of_operation?_eq_none {generator : Generator σ}
    (h : generator.next.operation? = none) : generator.next.rest = generator := by
  rcases Nat.lt_or_ge generator.emitted generator.total with hlt | hge
  · obtain ⟨operation, rest, hnext, -⟩ := next_of_lt hlt
    rw [hnext] at h
    contradiction
  · rw [next_of_ge hge]

/-- A call that makes an operation makes it in one of the four ways. -/
theorem makes_of_operation?_eq_some {generator : Generator σ} {operation : Operation}
    (h : generator.next.operation? = some operation) :
    Makes generator operation generator.next.rest := by
  rcases Nat.lt_or_ge generator.emitted generator.total with hlt | hge
  · obtain ⟨operation', rest, hnext, hmakes⟩ := next_of_lt hlt
    rw [hnext, Option.some.injEq] at h
    rw [hnext, ← h]
    exact hmakes
  · rw [next_of_ge hge] at h
    contradiction

/-! ## Any number of calls -/

/-- The generator after `count` calls. -/
def after (generator : Generator σ) : (count : Nat) → Generator σ
  | 0 => generator
  | count + 1 => (after generator count).next.rest

/-- The operations that `count` calls make, in order. -/
def made (generator : Generator σ) : (count : Nat) → List Operation
  | 0 => []
  | count + 1 => made generator count ++ (after generator count).next.operation?.toList

/-- What holds before the first call, and is kept by each call that makes an operation, holds after
any number of calls. -/
theorem after_induction {P : Generator σ → List Operation → Prop} {generator : Generator σ}
    (hstart : P generator [])
    (hstep : ∀ before made operation rest, P before made → Makes before operation rest →
      P rest (made ++ [operation])) (count : Nat) :
    P (generator.after count) (generator.made count) := by
  induction count with
  | zero => exact hstart
  | succ count ih =>
    rw [after, made]
    cases hoperation : (generator.after count).next.operation? with
    | none =>
      rw [rest_of_operation?_eq_none hoperation, Option.toList_none, List.append_nil]
      exact ih
    | some operation => exact hstep _ _ _ _ ih (makes_of_operation?_eq_some hoperation)

/-- After a call that makes nothing, no later call makes anything. -/
theorem operation?_eq_none_of_le {generator : Generator σ} {i j : Nat} (hij : i ≤ j)
    (h : (generator.after i).next.operation? = none) :
    (generator.after j).next.operation? = none := by
  induction hij with
  | refl => exact h
  | step _ ih => rwa [after, rest_of_operation?_eq_none ih]

/-- As long as calls make operations, there is one operation for each call. -/
theorem length_made_of_ne_none {generator : Generator σ} {count : Nat}
    (h : ∀ i < count, (generator.after i).next.operation? ≠ none) :
    (generator.made count).length = count := by
  induction count with
  | zero => rfl
  | succ count ih =>
    obtain ⟨operation, hoperation⟩ := Option.ne_none_iff_exists'.mp (h count (Nat.lt_succ_self _))
    rw [made, List.length_append, ih fun i hi => h i (Nat.lt_succ_of_lt hi), hoperation]
    rfl

/-- The operation at a position is the one that the call of that number made. -/
theorem getElem?_made (generator : Generator σ) (count i : Nat) :
    (generator.made count)[i]? =
      if i < count then (generator.after i).next.operation? else none := by
  induction count with
  | zero => rfl
  | succ count ih =>
    rw [made]
    cases hlast : (generator.after count).next.operation? with
    | none =>
      rw [Option.toList_none, List.append_nil, ih]
      rcases Nat.lt_trichotomy i count with hlt | rfl | hgt
      · rw [if_pos hlt, if_pos (Nat.lt_succ_of_lt hlt)]
      · rw [if_neg (Nat.lt_irrefl i), if_pos (Nat.lt_succ_self i), hlast]
      · rw [if_neg (by omega), if_neg (by omega)]
    | some operation =>
      -- No earlier call came up empty, so the new operation is at position `count`.
      have hlength : (generator.made count).length = count := by
        refine length_made_of_ne_none fun j hj hnone => ?_
        rw [operation?_eq_none_of_le (Nat.le_of_lt hj) hnone] at hlast
        contradiction
      rw [Option.toList_some, List.getElem?_append, hlength, ih]
      rcases Nat.lt_trichotomy i count with hlt | rfl | hgt
      · rw [if_pos hlt, if_pos hlt, if_pos (Nat.lt_succ_of_lt hlt)]
      · rw [if_neg (Nat.lt_irrefl i), if_pos (Nat.lt_succ_self i), Nat.sub_self, hlast]
        rfl
      · rw [if_neg (by omega), if_neg (by omega)]
        exact List.getElem?_eq_none (Nat.sub_pos_of_lt hgt)

/-- The operation at a position is made by the generator as it was before the call of that
number. -/
theorem makes_of_getElem?_made {generator : Generator σ} {count i : Nat} {operation : Operation}
    (h : (generator.made count)[i]? = some operation) :
    i < count ∧ Makes (generator.after i) operation (generator.after (i + 1)) := by
  rw [getElem?_made] at h
  split at h
  · rename_i hi
    exact ⟨hi, makes_of_operation?_eq_some h⟩
  · contradiction

end StoreTrial.Workload.Generator
