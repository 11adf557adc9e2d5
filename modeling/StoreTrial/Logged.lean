import StoreTrial.Event

/-!
# Computations that report events

`Logged` is a result together with the events reported on the way to it. `Trial` is such a
computation that may also end with a fault; the events up to the fault are kept.
-/

namespace StoreTrial

/-- The result of a computation, with the events that it reported. -/
structure Logged (α : Type) where
  /-- The result. -/
  value : α
  /-- The events, in order. -/
  events : List Event

namespace Logged

/-- The computation that reports `events` and does nothing else. -/
def tell (events : List Event) : Logged Unit := ⟨(), events⟩

instance : Monad Logged where
  pure a := ⟨a, []⟩
  bind first next :=
    let second := next first.value
    ⟨second.value, first.events ++ second.events⟩

instance : LawfulMonad Logged :=
  LawfulMonad.mk' _ (fun _ => by simp [Functor.map]) (fun _ _ => by simp [Bind.bind, Pure.pure])
    (fun _ _ _ => by simp [Bind.bind, List.append_assoc])

end Logged

/-- A computation that reports events and may end with a fault. -/
abbrev Trial (α : Type) := ExceptT Fault Logged α

namespace Trial

/-- The computation that reports `events`. -/
def tell (events : List Event) : Trial Unit := ExceptT.lift (Logged.tell events)

/-- The computation with a result that is already known. -/
def ofExcept {α : Type} (result : Except Fault α) : Trial α := ExceptT.mk (pure result)

end Trial

end StoreTrial
