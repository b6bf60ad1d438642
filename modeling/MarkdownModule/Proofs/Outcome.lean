import MarkdownModule.Text.Basic

/-!
# Outcomes of steps

A step succeeds or fails, and steps follow each other.  What a row of steps gives is taken apart step
by step.

* `ok_bind`   what follows a step that succeeds goes on with its value
* `ok_of_bind`, `ok_of_map`, `ok_of_mapError`   a row of steps that succeeds
* `error_of_bind_iff`, `error_of_map_iff`, `error_of_mapError_iff`   a row of steps that fails
-/

namespace MarkdownModule

/-! ## steps that succeed -/

theorem ok_bind {ε α β : Type} (a : α) (f : α → Except ε β) : (Except.ok a >>= f) = f a := rfl

/-- two steps succeed when both do -/
theorem ok_of_bind {ε α β : Type} {x : Except ε α} {f : α → Except ε β} {b : β}
    (h : x.bind f = .ok b) : ∃ a, x = .ok a ∧ f a = .ok b := by
  cases x with
  | error e => exact nomatch h
  | ok a => exact ⟨a, rfl, h⟩

theorem ok_of_map {ε α β : Type} {x : Except ε α} {f : α → β} {b : β}
    (h : x.map f = .ok b) : ∃ a, x = .ok a ∧ f a = b := by
  cases x with
  | error e => exact nomatch h
  | ok a => exact ⟨a, rfl, Except.ok.inj h⟩

theorem ok_of_mapError {ε δ α : Type} {x : Except ε α} {f : ε → δ} {a : α}
    (h : x.mapError f = .ok a) : x = .ok a := by
  cases x with
  | error e => exact nomatch h
  | ok b => exact congrArg Except.ok (Except.ok.inj h)

/-! ## steps that fail -/

theorem error_of_bind_iff {ε α β : Type} {x : Except ε α} {f : α → Except ε β} {e : ε} :
    x.bind f = .error e ↔ x = .error e ∨ ∃ a, x = .ok a ∧ f a = .error e := by
  cases x with
  | error e' => simp [Except.bind]
  | ok a => simp [Except.bind]

theorem error_of_map_iff {ε α β : Type} {x : Except ε α} {f : α → β} {e : ε} :
    x.map f = .error e ↔ x = .error e := by
  cases x with
  | error e' => simp [Except.map]
  | ok a => simp [Except.map]

theorem error_of_mapError_iff {ε ε' α : Type} {x : Except ε α} {f : ε → ε'} {e : ε'} :
    x.mapError f = .error e ↔ ∃ cause, x = .error cause ∧ e = f cause := by
  constructor
  · intro h
    cases x with
    | error cause => exact ⟨cause, rfl, (Except.error.inj h).symm⟩
    | ok a => exact nomatch h
  · rintro ⟨cause, rfl, rfl⟩
    rfl

end MarkdownModule
