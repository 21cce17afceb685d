import Mathlib

/-!
# Outcomes of steps

Steps that may fail are put together in the exception monad.  A result of the whole comes from
results of its steps (`bind_eq_ok`, `map_eq_ok`), and if every step has one, the whole has one, too
(`exists_bind`).
-/

namespace DocComment

variable {ε α β : Type}

theorem map_eq_ok {f : α → β} {outcome : Except ε α} {b : β} (h : outcome.map f = .ok b) :
    ∃ a, outcome = .ok a ∧ f a = b := by
  cases outcome with
  | error error => simp [Except.map] at h
  | ok a => exact ⟨a, rfl, Except.ok.inj h⟩

theorem ok_bind (a : α) (next : α → Except ε β) : (Except.ok a >>= next) = next a := rfl

/-- A step that succeeds has its first part succeed, and what follows on the result of that. -/
theorem bind_eq_ok {first : Except ε α} {next : α → Except ε β} {b : β}
    (h : first >>= next = .ok b) : ∃ a, first = .ok a ∧ next a = .ok b := by
  cases first with
  | error error => cases h
  | ok a => exact ⟨a, rfl, h⟩

theorem exists_bind {step : Except ε α} {next : α → Except ε β} (hstep : ∃ a, step = .ok a)
    (hnext : ∀ a, ∃ b, next a = .ok b) : ∃ b, (step >>= next) = .ok b := by
  obtain ⟨a, rfl⟩ := hstep
  exact hnext a

/-- Checks that never fail may be left out. -/
theorem forM_filter {check : α → Except ε Unit} {p : α → Bool} {elements : List α}
    (h : ∀ element ∈ elements, p element = false → check element = .ok ()) :
    (elements.filter p).forM check = elements.forM check := by
  induction elements with
  | nil => rfl
  | cons element elements ih =>
      have hrest := ih fun other hm => h other (List.mem_cons_of_mem element hm)
      have hcons (others : List α) :
          (element :: others).forM check = check element >>= fun _ => others.forM check := rfl
      cases hp : p element with
      | true => rw [List.filter_cons_of_pos hp, hcons, hcons, hrest]
      | false =>
          rw [List.filter_cons_of_neg (by simp [hp]), hcons, h element List.mem_cons_self hp, hrest]
          rfl

end DocComment
