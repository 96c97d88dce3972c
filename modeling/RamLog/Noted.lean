import RamLog.Event
import RamLog.Fault

/-!
# Computations that take notes

A `Noted` computation notes events and may fail; what it noted before a fault is kept.
-/
namespace RamLog

/-- The events noted, and the result or the fault that cut the computation short. -/
structure Noted (α : Type) where
  events : List Event
  result : Except Fault α

namespace Noted

/-- The second computation runs if the first succeeds, and its events follow. -/
protected def bind {α β : Type} (x : Noted α) (f : α → Noted β) : Noted β :=
  match x.result with
  | .error fault => ⟨x.events, .error fault⟩
  | .ok a =>
    let next := f a
    ⟨x.events ++ next.events, next.result⟩

protected def map {α β : Type} (f : α → β) (x : Noted α) : Noted β := ⟨x.events, x.result.map f⟩

instance : Monad Noted where
  pure a := ⟨[], .ok a⟩
  bind := Noted.bind
  map := Noted.map

def note (event : Event) : Noted Unit := ⟨[event], .ok ()⟩

def ofExcept {α : Type} (result : Except Fault α) : Noted α := ⟨[], result⟩

theorem pure_eq {α : Type} (a : α) : (pure a : Noted α) = ⟨[], .ok a⟩ := rfl

theorem error_bind {α β : Type} (events : List Event) (fault : Fault) (f : α → Noted β) :
    (⟨events, .error fault⟩ : Noted α) >>= f = ⟨events, .error fault⟩ := rfl

theorem ok_bind {α β : Type} (events : List Event) (a : α) (f : α → Noted β) :
    (⟨events, .ok a⟩ : Noted α) >>= f = ⟨events ++ (f a).events, (f a).result⟩ := rfl

end Noted

end RamLog
