/-!
# Computations that leave a log

`Logged ν ε α` is the outcome of a computation that writes notes of type `ν` and ends with a value
or an error; what was noted before an error is kept. Statements about values speak of `result`
alone: the equations `result_pure`, `result_bind` and their kin say that `result` turns a logged
computation into a plain one.
-/

namespace LayoutGrammar

universe u v

/-- What a computation noted, and how it ended. -/
structure Logged (ν ε α : Type) where
  log : List ν
  result : Except ε α

namespace Logged

variable {ν μ ε α β : Type}

/-- Ends with a value. -/
@[inline] protected def pure (a : α) : Logged ν ε α := ⟨[], .ok a⟩

/-- Ends with an error. -/
@[inline] def fail (e : ε) : Logged ν ε α := ⟨[], .error e⟩

/-- Notes something. -/
@[inline] def say (n : ν) : Logged ν ε Unit := ⟨[n], .ok ()⟩

/-- Goes on after a value; an error ends the computation. -/
@[inline] protected def bind (x : Logged ν ε α) (f : α → Logged ν ε β) : Logged ν ε β :=
  match x.result with
  | .ok a =>
    let y := f a
    ⟨x.log ++ y.log, y.result⟩
  | .error e => ⟨x.log, .error e⟩

instance : Monad (Logged ν ε) where
  pure := Logged.pure
  bind := Logged.bind

/-- A computation without notes. -/
def ofExcept (x : Except ε α) : Logged ν ε α := ⟨[], x⟩

/-- Changes every note. -/
def mapLog (f : ν → μ) (x : Logged ν ε α) : Logged μ ε α := ⟨x.log.map f, x.result⟩

/-- A computation between a note made on entry and a note made on exit. -/
def between (entering : ν) (exiting : Except ε α → ν) (x : Logged ν ε α) : Logged ν ε α :=
  ⟨entering :: x.log ++ [exiting x.result], x.result⟩

@[simp] theorem result_pure (a : α) : (pure a : Logged ν ε α).result = .ok a := rfl

@[simp] theorem result_say (n : ν) : (say n : Logged ν ε Unit).result = .ok () := rfl

@[simp] theorem result_bind (x : Logged ν ε α) (f : α → Logged ν ε β) :
    (x >>= f).result = x.result >>= fun a => (f a).result := by
  change (Logged.bind x f).result = _
  unfold Logged.bind
  split <;> rename_i h <;> rw [h] <;> rfl

@[simp] theorem result_ofExcept (x : Except ε α) :
    (ofExcept x : Logged ν ε α).result = x := rfl

instance : LawfulMonad (Logged ν ε) := LawfulMonad.mk' (Logged ν ε)
  (by
    rintro α ⟨log, result⟩
    change Logged.bind _ _ = _
    cases result <;> simp [Logged.bind, Logged.pure])
  (by
    intro α β a f
    change Logged.bind (Logged.pure a) f = f a
    simp [Logged.bind, Logged.pure])
  (by
    rintro α β γ ⟨log, result⟩ f g
    change Logged.bind (Logged.bind _ f) g = Logged.bind _ fun a => Logged.bind (f a) g
    cases result with
    | error e => rfl
    | ok a =>
      simp only [Logged.bind]
      cases h : (f a).result <;> simp)

end Logged

end LayoutGrammar
