namespace Managed

structure Settled {ε α : Type} (outcome : Except ε α) (good : α → Prop) (bad : ε → Prop) :
    Prop where
  value : ∀ value, good value → outcome = .ok value
  fault : ∀ fault, bad fault → outcome = .error fault
  total : (∃ value, good value) ∨ ∃ fault, bad fault

namespace Settled

variable {ε α : Type} {outcome : Except ε α} {good : α → Prop} {bad : ε → Prop}

theorem eq_ok (settled : Settled outcome good bad) {value : α} :
    outcome = .ok value ↔ good value := by
  refine ⟨fun reached => ?_, settled.value value⟩
  rcases settled.total with ⟨other, fits⟩ | ⟨fault, fits⟩
  · rw [settled.value other fits] at reached
    cases reached
    exact fits
  · rw [settled.fault fault fits] at reached
    cases reached

theorem eq_error (settled : Settled outcome good bad) {fault : ε} :
    outcome = .error fault ↔ bad fault := by
  refine ⟨fun failed => ?_, settled.fault fault⟩
  rcases settled.total with ⟨value, fits⟩ | ⟨other, fits⟩
  · rw [settled.value value fits] at failed
    cases failed
  · rw [settled.fault other fits] at failed
    cases failed
    exact fits

end Settled

end Managed
