import Intcode.Opcode

namespace Intcode.Opcode

@[simp] theorem ofCode?_code (opcode : Opcode) : ofCode? opcode.code = some opcode := by
  cases opcode <;> rfl

theorem ofCode?_eq_some_iff {code : Word} {opcode : Opcode} :
    ofCode? code = some opcode ↔ opcode.code = code := by
  constructor
  · intro found
    exact beq_iff_eq.mp (List.find?_some (p := fun opcode : Opcode => opcode.code == code) found)
  · rintro rfl
    exact ofCode?_code opcode

theorem code_ne_of_ofCode?_eq_none {code : Word} (unknown : ofCode? code = none) (opcode : Opcode) :
    opcode.code ≠ code := by
  intro same
  rw [← same, ofCode?_code] at unknown
  contradiction

end Intcode.Opcode
