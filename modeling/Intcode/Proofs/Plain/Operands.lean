import Intcode.Proofs.Instruction.Operands
import Intcode.Proofs.Plain

namespace Intcode

namespace Plain

/-- The operands for a row of parameters: the values, and where the result goes. -/
def operands (plain : Plain) : List ParamKind → Nat → Except FaultKind (List Word × Option Int)
  | [], _ => .ok ([], none)
  | .value :: rest, index => do
      let word ← plain.value index
      let operands ← plain.operands rest (index + 1)
      return (word :: operands.1, operands.2)
  | .destination :: rest, index => do
      let place ← plain.target index
      let operands ← plain.operands rest (index + 1)
      return (operands.1, some place)

/-- A running machine in the state of a plain one. -/
structure Mirrors (machine : Machine) (plain : Plain) : Prop where
  memory : ∀ address, machine.memory.get address = plain.cells address
  size : machine.memory.size = plain.size
  base : machine.base = plain.base
  pointer : machine.pointer = plain.pointer

variable {machine : Machine} {plain : Plain}

theorem Mirrors.within (mirrors : Mirrors machine plain) (inside : plain.pointer < plain.size) :
    machine.pointer < machine.memory.size := by
  rw [mirrors.pointer, mirrors.size]
  exact inside

theorem Mirrors.word (mirrors : Mirrors machine plain) :
    machine.memory.get machine.pointer = plain.word := by
  rw [mirrors.pointer, mirrors.memory, Plain.word]

theorem load_eq (mirrors : Mirrors machine plain) {mode : Mode} (raw : Word) {place : Int}
    (meant : placeOf mode raw machine.base = place) (indirect : mode ≠ .immediate) :
    Instruction.fetch machine.memory machine.base mode raw = plain.load place := by
  subst place
  rw [Instruction.fetch_indirect indirect, load]
  simp only [← mirrors.memory]

theorem readParam_value (mirrors : Mirrors machine plain) (index : Nat) :
    Instruction.readParam machine.memory machine.base plain.word .value index
      (plain.pointer + 1 + index) = (plain.value index).map .value := by
  by_cases inside : plain.pointer + 1 + index < plain.size
  · have below : ¬ machine.memory.size ≤ plain.pointer + 1 + index := by
      rw [mirrors.size]
      omega
    simp only [Instruction.readParam, below, if_false, value, parameter, inside, if_true,
      Instruction.readOperand, mirrors.memory]
    rcases InstructionWord.mode_cases plain.word index with
      ⟨digit, mode⟩ | ⟨digit, mode⟩ | ⟨digit, mode⟩ | ⟨zero, one, two, mode⟩
    · simp only [digit, mode]
      rw [load_eq mirrors _ rfl (by decide)]
      rfl
    · simp only [digit, mode, Instruction.fetch]
    · simp only [digit, mode]
      rw [load_eq mirrors _ rfl (by decide), placeOf, if_pos rfl, mirrors.base]
      rfl
    · simp only [mode]
      rfl
  · have ends : machine.memory.size ≤ plain.pointer + 1 + index := by
      rw [mirrors.size]
      omega
    simp only [Instruction.readParam, ends, if_true, value, parameter, inside, if_false]
    rfl

theorem readParam_destination (mirrors : Mirrors machine plain) (index : Nat) :
    (∃ kind, plain.target index = .error kind ∧
      Instruction.readParam machine.memory machine.base plain.word .destination index
        (plain.pointer + 1 + index) = .error kind) ∨
    (∃ destination : Destination,
      plain.target index = .ok (placeOf destination.mode destination.raw machine.base) ∧
      Instruction.readParam machine.memory machine.base plain.word .destination index
        (plain.pointer + 1 + index) = .ok (.destination destination)) := by
  by_cases inside : plain.pointer + 1 + index < plain.size
  · have below : ¬ machine.memory.size ≤ plain.pointer + 1 + index := by
      rw [mirrors.size]
      omega
    simp only [Instruction.readParam, below, if_false, target, parameter, inside, if_true,
      Instruction.readOperand, mirrors.memory]
    rcases InstructionWord.mode_cases plain.word index with
      ⟨digit, mode⟩ | ⟨digit, mode⟩ | ⟨digit, mode⟩ | ⟨zero, one, two, mode⟩
    · simp only [digit, mode]
      exact .inr ⟨{ mode := .position, raw := _ }, rfl, rfl⟩
    · simp only [digit, mode]
      exact .inl ⟨_, rfl, rfl⟩
    · simp only [digit, mode]
      refine .inr ⟨{ mode := .relative, raw := plain.cells (plain.pointer + 1 + index) }, ?_, rfl⟩
      rw [placeOf, if_pos rfl, mirrors.base]
      rfl
    · simp only [mode]
      exact .inl ⟨_, rfl, rfl⟩
  · have ends : machine.memory.size ≤ plain.pointer + 1 + index := by
      rw [mirrors.size]
      omega
    simp only [Instruction.readParam, ends, if_true, target, parameter, inside, if_false]
    exact .inl ⟨_, rfl, rfl⟩

theorem readOperands_agrees (mirrors : Mirrors machine plain) (kinds : List ParamKind)
    (index : Nat) :
    (∃ kind, plain.operands kinds index = .error kind ∧
      (Instruction.readOperands machine.memory machine.base plain.word kinds index
        (plain.pointer + 1 + index)).2 = .error kind) ∨
    (∃ operands : Operands,
      plain.operands kinds index = .ok (operands.values, operands.destination.map fun destination =>
        placeOf destination.mode destination.raw machine.base) ∧
      Instruction.readOperands machine.memory machine.base plain.word kinds index
        (plain.pointer + 1 + index) = (plain.pointer + 1 + index + kinds.length, .ok operands)) := by
  induction kinds generalizing index with
  | nil => exact .inr ⟨{}, rfl, rfl⟩
  | cons kind rest ih =>
      have further := ih (index + 1)
      rw [← Nat.add_assoc] at further
      cases kind with
      | value =>
          have read := readParam_value mirrors index
          cases first : plain.value index with
          | error fault =>
              rw [first] at read
              refine .inl ⟨fault, ?_, Instruction.readOperands_error read⟩
              simp only [operands, first]
              rfl
          | ok word =>
              rw [first] at read
              rw [Instruction.readOperands_ok read]
              rcases further with ⟨fault, later, laterRead⟩ | ⟨operands, later, laterRead⟩
              · refine .inl ⟨fault, ?_, ?_⟩
                · simp only [Plain.operands, first, later]
                  rfl
                · simp only [laterRead]
                  rfl
              · refine .inr ⟨{ operands with values := word :: operands.values }, ?_, ?_⟩
                · simp only [Plain.operands, first, later]
                  rfl
                · simp only [laterRead, List.length_cons]
                  exact Prod.ext (by omega) rfl
      | destination =>
          rcases readParam_destination mirrors index with
            ⟨fault, first, read⟩ | ⟨destination, first, read⟩
          · refine .inl ⟨fault, ?_, Instruction.readOperands_error read⟩
            simp only [operands, first]
            rfl
          · rw [Instruction.readOperands_ok read]
            rcases further with ⟨fault, later, laterRead⟩ | ⟨operands, later, laterRead⟩
            · refine .inl ⟨fault, ?_, ?_⟩
              · simp only [Plain.operands, first, later]
                rfl
              · simp only [laterRead]
                rfl
            · refine .inr ⟨{ operands with destination := some destination }, ?_, ?_⟩
              · simp only [Plain.operands, first, later]
                rfl
              · simp only [laterRead, List.length_cons]
                exact Prod.ext (by omega) rfl

theorem operands_shape {kinds : List ParamKind} {index : Nat} {values : List Word}
    {place : Option Int} (read : plain.operands kinds index = .ok (values, place)) :
    values.length = kinds.count .value ∧ place.isSome = kinds.contains .destination := by
  induction kinds generalizing index values place with
  | nil =>
      cases read
      exact ⟨rfl, rfl⟩
  | cons kind rest ih =>
      cases kind with
      | value =>
          cases first : plain.value index with
          | error fault =>
              simp only [operands, first] at read
              cases read
          | ok word =>
              cases later : plain.operands rest (index + 1) with
              | error fault =>
                  simp only [operands, first, later] at read
                  cases read
              | ok operands =>
                  obtain ⟨count, found⟩ := ih later
                  simp only [Plain.operands, first, later] at read
                  cases read
                  simp [count, found]
      | destination =>
          cases first : plain.target index with
          | error fault =>
              simp only [operands, first] at read
              cases read
          | ok word =>
              cases later : plain.operands rest (index + 1) with
              | error fault =>
                  simp only [operands, first, later] at read
                  cases read
              | ok operands =>
                  obtain ⟨count, _⟩ := ih later
                  simp only [Plain.operands, first, later] at read
                  cases read
                  simp [count]

theorem compute_eq (rule : Int → Int → Int) :
    plain.compute rule = (do
      match ← plain.operands [.value, .value, .destination] 0 with
      | ([left, right], some place) =>
          return plain.store place (Int64.ofInt (rule left.toInt right.toInt)) 4 none
      | _ => return (plain, none)) := by
  unfold compute
  simp only [operands]
  cases plain.value 0 with
  | error => rfl
  | ok left =>
      cases plain.value 1 with
      | error => rfl
      | ok right => cases plain.target 2 <;> rfl

theorem jumpIf_eq (condition : Int → Bool) :
    plain.jumpIf condition = (do
      match ← plain.operands [.value, .value] 0 with
      | ([tested, target], none) =>
          if condition tested.toInt then
            if target.toInt < 0 then throw (.negativeAddress target)
            else return ({ plain with pointer := target.toInt.toNat }, none)
          else return plain.pass 3 none
      | _ => return (plain, none)) := by
  unfold jumpIf
  simp only [operands]
  cases plain.value 0 with
  | error => rfl
  | ok tested => cases plain.value 1 <;> rfl

theorem take_eq :
    plain.take = (do
      match ← plain.operands [.destination] 0 with
      | ([], some place) =>
          match plain.input with
          | none => throw .inputNotConnected
          | some source =>
              let plain := { plain with input := some source.next.2 }
              match source.next.1 with
              | none => return plain.fail .inputExhausted
              | some word => return plain.store place word 2 (some (.ok .afterInput))
      | _ => return (plain, none)) := by
  unfold take
  simp only [operands]
  cases plain.target 0 <;> rfl

theorem value_bind_eq (next : Word → Except FaultKind Report) :
    (plain.value 0 >>= next) = (do
      match ← plain.operands [.value] 0 with
      | ([word], none) => next word
      | _ => return (plain, none)) := by
  simp only [operands]
  cases plain.value 0 <;> rfl

theorem compute_agrees (mirrors : Mirrors machine plain) (rule : Int → Int → Int) :
    (∃ kind, plain.compute rule = .error kind ∧
      (Instruction.readOperands machine.memory machine.base plain.word
        [.value, .value, .destination] 0 (plain.pointer + 1)).2 = .error kind) ∨
    (∃ left right destination,
      plain.compute rule = .ok (plain.store (placeOf destination.mode destination.raw machine.base)
        (Int64.ofInt (rule left.toInt right.toInt)) 4 none) ∧
      Instruction.readOperands machine.memory machine.base plain.word
        [.value, .value, .destination] 0 (plain.pointer + 1) =
          (plain.pointer + 4, .ok { values := [left, right], destination := some destination })) := by
  rcases readOperands_agrees mirrors [.value, .value, .destination] 0 with
    ⟨kind, failed, read⟩ | ⟨⟨values, destination⟩, succeeded, read⟩
  · refine .inl ⟨kind, ?_, read⟩
    rw [compute_eq, failed]
    rfl
  · obtain ⟨count, found⟩ := operands_shape succeeded
    match values, destination, count, found with
    | [left, right], some destination, _, _ =>
        refine .inr ⟨left, right, destination, ?_, read⟩
        rw [compute_eq, succeeded]
        rfl

theorem jumpIf_agrees (mirrors : Mirrors machine plain) (condition : Int → Bool) :
    (∃ kind, plain.jumpIf condition = .error kind ∧
      (Instruction.readOperands machine.memory machine.base plain.word [.value, .value] 0
        (plain.pointer + 1)).2 = .error kind) ∨
    (∃ tested target,
      plain.jumpIf condition =
        (if condition tested.toInt then
          if target.toInt < 0 then .error (.negativeAddress target)
          else .ok ({ plain with pointer := target.toInt.toNat }, none)
        else .ok (plain.pass 3 none)) ∧
      Instruction.readOperands machine.memory machine.base plain.word [.value, .value] 0
        (plain.pointer + 1) = (plain.pointer + 3, .ok { values := [tested, target] })) := by
  rcases readOperands_agrees mirrors [.value, .value] 0 with
    ⟨kind, failed, read⟩ | ⟨⟨values, destination⟩, succeeded, read⟩
  · refine .inl ⟨kind, ?_, read⟩
    rw [jumpIf_eq, failed]
    rfl
  · obtain ⟨count, found⟩ := operands_shape succeeded
    match values, destination, count, found with
    | [tested, target], none, _, _ =>
        refine .inr ⟨tested, target, ?_, read⟩
        rw [jumpIf_eq, succeeded]
        rfl

theorem take_agrees (mirrors : Mirrors machine plain) :
    (∃ kind, plain.take = .error kind ∧
      (Instruction.readOperands machine.memory machine.base plain.word [.destination] 0
        (plain.pointer + 1)).2 = .error kind) ∨
    (∃ destination,
      plain.take =
        (match plain.input with
        | none => .error .inputNotConnected
        | some source =>
            let plain := { plain with input := some source.next.2 }
            match source.next.1 with
            | none => .ok (plain.fail .inputExhausted)
            | some word => .ok (plain.store (placeOf destination.mode destination.raw machine.base)
                word 2 (some (.ok .afterInput)))) ∧
      Instruction.readOperands machine.memory machine.base plain.word [.destination] 0
        (plain.pointer + 1) = (plain.pointer + 2, .ok { destination := some destination })) := by
  rcases readOperands_agrees mirrors [.destination] 0 with
    ⟨kind, failed, read⟩ | ⟨⟨values, destination⟩, succeeded, read⟩
  · refine .inl ⟨kind, ?_, read⟩
    rw [take_eq, failed]
    rfl
  · obtain ⟨count, found⟩ := operands_shape succeeded
    match values, destination, count, found with
    | [], some destination, _, _ =>
        refine .inr ⟨destination, ?_, read⟩
        rw [take_eq, succeeded]
        rfl

theorem value_bind_agrees (mirrors : Mirrors machine plain)
    (next : Word → Except FaultKind Report) :
    (∃ kind, (plain.value 0 >>= next) = .error kind ∧
      (Instruction.readOperands machine.memory machine.base plain.word [.value] 0
        (plain.pointer + 1)).2 = .error kind) ∨
    (∃ word, (plain.value 0 >>= next) = next word ∧
      Instruction.readOperands machine.memory machine.base plain.word [.value] 0
        (plain.pointer + 1) = (plain.pointer + 2, .ok { values := [word] })) := by
  rcases readOperands_agrees mirrors [.value] 0 with
    ⟨kind, failed, read⟩ | ⟨⟨values, destination⟩, succeeded, read⟩
  · refine .inl ⟨kind, ?_, read⟩
    rw [value_bind_eq, failed]
    rfl
  · obtain ⟨count, found⟩ := operands_shape succeeded
    match values, destination, count, found with
    | [word], none, _, _ =>
        refine .inr ⟨word, ?_, read⟩
        rw [value_bind_eq, succeeded]
        rfl

end Plain

end Intcode
