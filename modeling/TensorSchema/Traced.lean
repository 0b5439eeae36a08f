import TensorSchema.Event

/-! Computations that report events and may fail. The events before a failure are kept. -/

namespace TensorSchema

structure Traced (ε α : Type) where
  events : List Event
  outcome : Except ε α

namespace Traced

variable {ε ε' α β : Type}

protected def pure (a : α) : Traced ε α := ⟨[], .ok a⟩

protected def bind (x : Traced ε α) (f : α → Traced ε β) : Traced ε β :=
  match x.outcome with
  | .ok a => ⟨x.events ++ (f a).events, (f a).outcome⟩
  | .error e => ⟨x.events, .error e⟩

instance : Monad (Traced ε) where
  pure := Traced.pure
  bind := Traced.bind

def fail (e : ε) : Traced ε α := ⟨[], .error e⟩

def report (event : Event) : Traced ε Unit := ⟨[event], .ok ()⟩

def reportAll (events : List Event) : Traced ε Unit := ⟨events, .ok ()⟩

def ofExcept (x : Except ε α) : Traced ε α := ⟨[], x⟩

def mapError (f : ε → ε') (x : Traced ε α) : Traced ε' α := ⟨x.events, x.outcome.mapError f⟩

@[simp] theorem outcome_pure (a : α) : (pure a : Traced ε α).outcome = .ok a := rfl

@[simp] theorem outcome_bind (x : Traced ε α) (f : α → Traced ε β) :
    (x >>= f).outcome = x.outcome.bind fun a => (f a).outcome := by
  change (Traced.bind x f).outcome = _
  unfold Traced.bind
  cases x.outcome <;> rfl

@[simp] theorem outcome_fail (e : ε) : (fail e : Traced ε α).outcome = .error e := rfl

@[simp] theorem outcome_report (event : Event) : (report event : Traced ε Unit).outcome = .ok () := rfl

@[simp] theorem outcome_reportAll (events : List Event) :
    (reportAll events : Traced ε Unit).outcome = .ok () := rfl

@[simp] theorem outcome_ofExcept (x : Except ε α) : (ofExcept x).outcome = x := rfl

@[simp] theorem outcome_mapError (f : ε → ε') (x : Traced ε α) :
    (x.mapError f).outcome = x.outcome.mapError f := rfl

end Traced

end TensorSchema
