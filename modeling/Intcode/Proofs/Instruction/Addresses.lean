import Intcode.Proofs.Instruction.Supplies
import Intcode.Proofs.Machine.Stores

namespace Intcode

/-- The address that a parameter word means, added up without any bound. -/
def exactPlace (mode : Mode) (raw base : Word) : Int :=
  if mode = .relative then base.toInt + raw.toInt else raw.toInt

variable {mode : Mode} {raw base word : Word} {memory : Memory} {pointer index address stop : Nat}

theorem placeOf_eq_clamp (mode : Mode) (raw base : Word) :
    placeOf mode raw base = Word.clamp (exactPlace mode raw base) := by
  have lower := raw.le_toInt
  have upper := raw.toInt_lt
  unfold placeOf exactPlace Word.clamp
  split <;> omega

theorem Destination.resolve_eq_ok_iff :
    ({ mode, raw } : Destination).resolve base = .ok address ↔
      0 ≤ exactPlace mode raw base ∧ (address : Int) = min (exactPlace mode raw base) (2 ^ 63 - 1) := by
  simp only [resolve, resolveAddress_eq, placeOf_eq_clamp, Word.clamp]
  split
  · exact iff_of_false (by rintro ⟨⟩) (by omega)
  · rw [Except.ok.injEq]
    omega

/-- An instruction writes a word to its destination: it has worked it out, or it is handed it. -/
inductive Machine.Writes (machine : Machine) (instruction : Instruction) (word : Word) :
    Machine → Prop
  | computed (asked : instruction.opcode.effect? instruction.operands.values = some (.write word)) :
      Writes machine instruction word (machine.execute instruction).1
  | received : Writes machine instruction word (machine.receive instruction (.value word)).1

theorem Machine.Writes.memory_eq {machine after : Machine} {instruction : Instruction}
    (writes : machine.Writes instruction word after)
    (goes : destinationOf instruction machine.base = .ok address) :
    after.memory = machine.memory.set address word := by
  cases writes with
  | computed asked =>
      simp only [execute_memory, storeBy?, asked, storeOf?, goes]
      rfl
  | received =>
      simp only [receive_memory, delivery?, storeOf?, goes]
      rfl

/-- Among the parameters in front of a value there are only values. -/
theorem Opcode.count_take_params {opcode : Opcode} (found : opcode.params[index]? = some .value) :
    (opcode.params.take index).count .value = index := by
  rcases index with _ | _ | _ | index <;> cases opcode <;> simp_all [params]

namespace Instruction

open InstructionWord

variable {opcode : Opcode} {kinds rest : List ParamKind} {operands : Operands} {number : Word}

/-- Decoding comes to a value parameter with some mode and word: whatever it asks before the
parameter's address holds. -/
structure Meets (memory : Memory) (base : Word) (pointer index : Nat) (mode : Mode) (raw : Word) :
    Prop where
  reached : ∃ before after, conditions memory pointer = before ++ .address .value index :: after ∧
    ∀ condition ∈ before, ∀ error, ¬ Violates memory base pointer condition error
  mode : InstructionWord.mode (memory.get pointer) index = .ok mode
  raw : memory.get (pointer + 1 + index) = raw

/-- A value parameter is decoded to a word, and decoding goes on behind it. If nothing else is
wrong, the word is the value at the parameter's index. -/
structure Yields (memory : Memory) (base : Word) (pointer index : Nat) (mode : Mode)
    (raw word : Word) : Prop where
  read : readOperand memory base .value mode raw = .ok (.value word)
  passed : ∀ error, ¬ Violates memory base pointer (.address .value index) error
  listed : ∀ stop instruction, decode memory base pointer = (stop, .ok instruction) →
    instruction.operands.values[index]? = some word

theorem Meets.param (meets : Meets memory base pointer index mode raw) :
    ∃ opcode, Names (memory.get pointer) opcode ∧ opcode.params[index]? = some .value := by
  obtain ⟨before, after, asked, _⟩ := meets.reached
  have member : .address .value index ∈ conditions memory pointer := by simp [asked]
  cases known : Opcode.ofCode? (code (memory.get pointer)) with
  | none => simp [conditions, known] at member
  | some opcode =>
      have names : Names (memory.get pointer) opcode := names_iff.mpr known
      rcases (mem_conditions_iff names).mp member with same | same | ⟨kind, place, found, here⟩
      · cases same
      · cases same
      · simp only [Condition.ofParam, List.mem_cons, List.not_mem_nil, or_false, reduceCtorEq,
          false_or, Condition.address.injEq] at here
        obtain ⟨rfl, rfl⟩ := here
        exact ⟨opcode, names, found⟩

/-- The first parameter of an instruction is met if it is a value and its mode is known. -/
theorem meets_first (inside : pointer + 1 < memory.size)
    (names : Names (memory.get pointer) opcode) (params : opcode.params = .value :: rest)
    (known : InstructionWord.mode (memory.get pointer) 0 = .ok mode)
    (holds : memory.get (pointer + 1) = raw) : Meets memory base pointer 0 mode raw := by
  refine ⟨⟨[.inside, .opcode, .present 0, .mode .value 0],
    (rest.zipIdx 1).flatMap Condition.ofParam, ?_, ?_⟩, known, holds⟩
  · simp [conditions, names_iff.mp names, params, Condition.ofParam]
  · simp only [List.forall_mem_cons, List.not_mem_nil, false_imp_iff, implies_true, and_true]
    refine ⟨?_, ?_, ?_, not_violates_mode known (by rintro ⟨⟩)⟩
    · rintro error ⟨⟩
      omega
    · intro error violated
      cases violated with
      | opcode unknown => exact unknown opcode names
    · rintro error ⟨⟩
      omega

theorem readOperands_value {place : Nat}
    (read : readOperands memory base word kinds index pointer = (stop, .ok operands))
    (found : kinds[place]? = some .value) :
    ∃ value, readParam memory base word .value (index + place) (pointer + place) =
        .ok (.value value) ∧
      operands.values[(kinds.take place).count .value]? = some value := by
  induction kinds generalizing index pointer place operands with
  | nil => simp at found
  | cons kind rest ih =>
      obtain ⟨operand, others, first, later, rfl⟩ := readOperands_cons_eq_ok_iff.mp read
      cases place with
      | zero =>
          cases found
          rcases readParam_cases first with ⟨_, value, rfl⟩ | ⟨⟨⟩, _⟩
          exact ⟨value, first, rfl⟩
      | succ place =>
          obtain ⟨value, here, listed⟩ := ih later found
          refine ⟨value, ?_, ?_⟩
          · rwa [show index + (place + 1) = index + 1 + place by omega,
              show pointer + (place + 1) = pointer + 1 + place by omega]
          · rcases readParam_cases first with ⟨rfl, _, rfl⟩ | ⟨rfl, _, rfl, _⟩ <;>
              simpa [Operand.before] using listed

theorem fetch_eq_resolve (addressed : mode ≠ .immediate) :
    fetch memory base mode raw =
      match ({ mode, raw } : Destination).resolve base with
      | .ok address => .ok (memory.get address)
      | .error number => .error (.negativeAddress number) := by
  cases mode with
  | immediate => contradiction
  | position | relative => rfl

theorem Meets.yields (meets : Meets memory base pointer index mode raw)
    (addressed : mode ≠ .immediate)
    (resolved : ({ mode, raw } : Destination).resolve base = .ok address) :
    Yields memory base pointer index mode raw (memory.get address) := by
  have fetched : fetch memory base mode raw = .ok (memory.get address) := by
    rw [fetch_eq_resolve addressed, resolved]
  refine ⟨?_, fun error violated => ?_, fun stop instruction decoded => ?_⟩
  · rw [readOperand, fetched]
    rfl
  · have first : FirstFault (fun _ => Violates memory base pointer) [.address .value index] error :=
      firstFault_cons.mpr (.inl violated)
    rw [firstFault_address meets.mode, meets.raw, fetched] at first
    exact not_firstFault_nil first
  · obtain ⟨opcode, names, found⟩ := meets.param
    obtain ⟨_, namesToo, _, read⟩ := decode_eq_ok_iff.mp decoded
    have same : opcode = instruction.opcode :=
      Option.some.inj ((names_iff.mp names).symm.trans (names_iff.mp namesToo))
    subst opcode
    obtain ⟨value, here, listed⟩ := readOperands_value read found
    rw [Opcode.count_take_params found] at listed
    rw [Nat.zero_add, readParam] at here
    split at here
    · cases here
    · rw [meets.mode] at here
      simp only [meets.raw, readOperand, fetched] at here
      cases here
      exact listed

theorem Meets.fails (meets : Meets memory base pointer index mode raw)
    (addressed : mode ≠ .immediate)
    (failed : ({ mode, raw } : Destination).resolve base = .error number) :
    decode memory base pointer =
      (pointer + 2 + index, .error { kind := .negativeAddress number, address := pointer }) := by
  obtain ⟨before, after, asked, sound⟩ := meets.reached
  refine decode_eq_error_iff.mpr ⟨rfl, ?_⟩
  rw [asked, firstFault_append_of_sound sound, firstFault_address meets.mode, meets.raw,
    fetch_eq_resolve addressed, failed]

/-- A destination that is no immediate one goes to the cell at the exact address, or at the largest
word if that is further, unless the address is negative. Every value parameter with the same mode
and word is decoded to what is in this cell, so to what was just written there, and it fails with
the number that the destination fails with. -/
theorem reading_and_writing_share_cells (base raw : Word) {mode : Mode}
    (addressed : mode ≠ .immediate) :
    let destination : Destination := { mode, raw }
    (∀ address : Nat, destination.resolve base = .ok address ↔
      0 ≤ exactPlace mode raw base ∧
        (address : Int) = min (exactPlace mode raw base) (2 ^ 63 - 1)) ∧
    (∀ address, destination.resolve base = .ok address →
      (∀ memory pointer index, Meets memory base pointer index mode raw →
        Yields memory base pointer index mode raw (memory.get address)) ∧
      ∀ (machine : Machine) instruction word after, machine.base = base →
        instruction.operands.destination = some destination →
        machine.Writes instruction word after →
        ∀ pointer index, Meets after.memory base pointer index mode raw →
          Yields after.memory base pointer index mode raw word) ∧
    ∀ number, destination.resolve base = .error number →
      ∀ memory pointer index, Meets memory base pointer index mode raw →
        decode memory base pointer =
          (pointer + 2 + index,
            .error { kind := .negativeAddress number, address := pointer }) := by
  intro destination
  refine ⟨fun address => Destination.resolve_eq_ok_iff, fun address resolved => ⟨?_, ?_⟩, ?_⟩
  · exact fun memory pointer index meets => meets.yields addressed resolved
  · rintro machine instruction word after rfl has writes pointer index meets
    have goes : Machine.destinationOf instruction machine.base = .ok address := by
      simp only [Machine.destinationOf, has, resolved]
    have yields := meets.yields addressed resolved
    rwa [writes.memory_eq goes, Memory.get_set, if_pos rfl, ← writes.memory_eq goes] at yields
  · exact fun number failed memory pointer index meets => meets.fails addressed failed

/-- Beyond the largest word there is one cell, for what comes in and what goes out alike. -/
theorem largest_address_is_shared :
    let destination : Destination := { mode := .relative, raw := 5 }
    let machine : Machine := { memory := .ofProgram ⟨[204, 5]⟩, base := Int64.maxValue }
    let instruction : Instruction := { opcode := .input, address := 0, operands := { destination } }
    let after := (machine.receive instruction (.value 7)).1
    destination.resolve Int64.maxValue = .ok (2 ^ 63 - 1) ∧
      Yields after.memory Int64.maxValue 0 0 .relative 5 7 ∧
      decode (.ofProgram ⟨[204, -1]⟩) Int64.minValue 0 =
        (2, .error { kind := .negativeAddress Int64.minValue, address := 0 }) := by
  intro destination machine instruction after
  have addressed : Mode.relative ≠ .immediate := by decide
  obtain ⟨places, shared, _⟩ := reading_and_writing_share_cells Int64.maxValue 5 addressed
  obtain ⟨_, _, fails⟩ := reading_and_writing_share_cells Int64.minValue (-1) addressed
  have resolved : destination.resolve Int64.maxValue = .ok (2 ^ 63 - 1) :=
    (places _).mpr (by decide)
  have outputs : Names (after.memory.get 0) .output := names_iff.mpr (by decide)
  have meets : Meets after.memory Int64.maxValue 0 0 .relative 5 :=
    meets_first (by decide) outputs rfl (by decide) (by decide)
  have outputsToo : Names ((Memory.ofProgram ⟨[204, -1]⟩).get 0) .output :=
    names_iff.mpr (by decide)
  have below : Meets (.ofProgram ⟨[204, -1]⟩) Int64.minValue 0 0 .relative (-1) :=
    meets_first (by decide) outputsToo rfl (by decide) (by decide)
  exact ⟨resolved, (shared _ resolved).2 machine instruction 7 after rfl rfl .received 0 0 meets,
    fails _ (by decide) _ 0 0 below⟩

end Instruction

end Intcode
