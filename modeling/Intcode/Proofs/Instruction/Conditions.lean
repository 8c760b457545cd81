import Intcode.Proofs.FirstFault
import Intcode.Proofs.Instruction.Operands
import Intcode.Proofs.Memory
import Intcode.Proofs.Opcode

namespace Intcode

/-! # The conditions of decoding

Decoding asks one thing after the other and stops at the first that does not hold. What it asks is
said here in terms of the integers in memory: the digits of the instruction word, and addresses
added up without any bound. The lowest digits of the instruction word alone decide what is decoded.
-/

namespace InstructionWord

/-- The two low digits of a positive instruction word are the code of an opcode. -/
def Names (word : Word) (opcode : Opcode) : Prop :=
  0 < word.toInt ∧ word.toInt % 100 = opcode.code.toInt

/-- The mode digit of a parameter as an integer. -/
def digit (word : Word) (index : Nat) : Int :=
  (word.toInt.tdiv (10 ^ (index + 2))).tmod 10

/-- The lowest digits of a word, with the sign of the word. -/
def lowest (word : Word) (count : Nat) : Int :=
  word.toInt.tmod (10 ^ count)

variable {word other : Word} {opcode : Opcode} {index count : Nat}

theorem names_iff : Names word opcode ↔ Opcode.ofCode? (code word) = some opcode := by
  rw [Opcode.ofCode?_eq_some_iff, ← Int64.toInt_inj, toInt_code, Names]
  have small : 0 < opcode.code.toInt ∧ opcode.code.toInt < 100 := by
    cases opcode <;> decide
  by_cases sign : 0 ≤ word.toInt
  · rw [Int.tmod_eq_emod_of_nonneg sign]
    omega
  · have mirrored : 0 ≤ (-word.toInt).tmod 100 := Int.tmod_nonneg 100 (by omega)
    rw [Int.neg_tmod] at mirrored
    omega

theorem digit_cases (word : Word) (index : Nat) :
    digit word index = 0 ∧ mode word index = .ok .position ∨
    digit word index = 1 ∧ mode word index = .ok .immediate ∨
    digit word index = 2 ∧ mode word index = .ok .relative ∨
    digit word index ≠ 0 ∧ digit word index ≠ 1 ∧ digit word index ≠ 2 ∧
      mode word index = .error (Int64.ofInt (digit word index)) :=
  mode_cases word index

theorem tdiv_tmod_eq (value : Int) (weight base : Nat) :
    (value.tmod (weight * base)).tdiv weight = (value.tdiv weight).tmod base := by
  obtain ⟨size, rfl | rfl⟩ := value.eq_nat_or_neg
  · exact congrArg Int.ofNat (Nat.mod_mul_right_div_self size weight base)
  · rw [Int.neg_tmod, Int.neg_tdiv, Int.neg_tdiv, Int.neg_tmod]
    exact congrArg (fun size : Nat => -(size : Int)) (Nat.mod_mul_right_div_self size weight base)

theorem lowest_eq_of_le {fewer : Nat} (same : lowest word count = lowest other count)
    (least : fewer ≤ count) : lowest word fewer = lowest other fewer := by
  have divides : (10 : Int) ^ fewer ∣ 10 ^ count := pow_dvd_pow 10 least
  rw [lowest, ← Int.tmod_tmod_of_dvd _ divides, ← lowest, same, lowest,
    Int.tmod_tmod_of_dvd _ divides, lowest]

theorem digit_eq_tdiv (word : Word) (index : Nat) :
    digit word index = (lowest word (2 + (index + 1))).tdiv (10 ^ (index + 2)) := by
  have split : (10 : Int) ^ (2 + (index + 1)) = 10 ^ (index + 2) * 10 := by
    rw [show 2 + (index + 1) = index + 2 + 1 by omega, pow_succ]
  have cut := tdiv_tmod_eq word.toInt (10 ^ (index + 2)) 10
  rw [Int.natCast_pow] at cut
  rw [lowest, split, digit]
  exact cut.symm

theorem mode_eq_of_digit_eq (same : digit word index = digit other index) :
    mode word index = mode other index := by
  have digits : modeDigit word index = modeDigit other index := by
    rw [← Int64.toInt_inj, toInt_modeDigit, toInt_modeDigit]
    exact same
  rw [mode, digits, mode]

theorem mode_eq_of_lowest_eq (same : lowest word (2 + count) = lowest other (2 + count))
    (below : index < count) : mode word index = mode other index := by
  apply mode_eq_of_digit_eq
  rw [digit_eq_tdiv, lowest_eq_of_le same (by omega), ← digit_eq_tdiv]

theorem code_eq_of_lowest_eq (same : lowest word (2 + count) = lowest other (2 + count)) :
    code word = code other := by
  have two : lowest word 2 = lowest other 2 := lowest_eq_of_le same (by omega)
  rw [← Int64.toInt_inj, toInt_code, toInt_code]
  exact two

end InstructionWord

namespace Instruction

open InstructionWord

/-- What decoding asks. A parameter is asked about three times. -/
inductive Condition where
  | inside
  | opcode
  | present (index : Nat)
  | mode (kind : ParamKind) (index : Nat)
  | address (kind : ParamKind) (index : Nat)
deriving DecidableEq, Repr

/-- How a condition fails to hold of the instruction at a pointer: with which fault, and at which
cell decoding then stands. -/
inductive Violates (memory : Memory) (base : Word) (pointer : Nat) :
    Condition → Nat × FaultKind → Prop
  | inside (past : memory.size ≤ pointer) :
      Violates memory base pointer .inside (pointer, .pastEnd)
  | opcode (unknown : ∀ opcode, ¬ Names (memory.get pointer) opcode) :
      Violates memory base pointer .opcode (pointer + 1, .invalidOpcode (memory.get pointer))
  | present {index : Nat} (ends : memory.size ≤ pointer + 1 + index) :
      Violates memory base pointer (.present index)
        (pointer + 1 + index, .incompleteInstruction)
  | mode {kind : ParamKind} {index : Nat} (zero : digit (memory.get pointer) index ≠ 0)
      (one : digit (memory.get pointer) index ≠ 1) (two : digit (memory.get pointer) index ≠ 2) :
      Violates memory base pointer (.mode kind index)
        (pointer + 2 + index, .invalidMode (Int64.ofInt (digit (memory.get pointer) index)))
  | immediate {index : Nat} (immediate : digit (memory.get pointer) index = 1) :
      Violates memory base pointer (.mode .destination index) (pointer + 2 + index, .invalidMode 1)
  | position {index : Nat} (position : digit (memory.get pointer) index = 0)
      (negative : (memory.get (pointer + 1 + index)).toInt < 0) :
      Violates memory base pointer (.address .value index)
        (pointer + 2 + index, .negativeAddress (memory.get (pointer + 1 + index)))
  | relative {index : Nat} (relative : digit (memory.get pointer) index = 2)
      (negative : base.toInt + (memory.get (pointer + 1 + index)).toInt < 0) :
      Violates memory base pointer (.address .value index)
        (pointer + 2 + index, .negativeAddress (Int64.ofInt
          (Word.clamp (base.toInt + (memory.get (pointer + 1 + index)).toInt))))

/-- What is asked about a parameter. -/
def Condition.ofParam (param : ParamKind × Nat) : List Condition :=
  [.present param.2, .mode param.1 param.2, .address param.1 param.2]

/-- What decoding asks about the instruction at a pointer. -/
def conditions (memory : Memory) (pointer : Nat) : List Condition :=
  let params := ((Opcode.ofCode? (code (memory.get pointer))).map Opcode.params).getD []
  [.inside, .opcode] ++ params.zipIdx.flatMap Condition.ofParam

/-- A complete instruction stands at a pointer: its parameters lie inside the program, their modes
are known, nothing is written to an immediate one, and no value comes from a negative address. -/
structure Complete (memory : Memory) (base : Word) (pointer : Nat) (opcode : Opcode) : Prop where
  inside : pointer < memory.size
  names : Names (memory.get pointer) opcode
  whole : pointer + opcode.width ≤ memory.size
  modes : ∀ index < opcode.arity, digit (memory.get pointer) index = 0 ∨
    digit (memory.get pointer) index = 1 ∨ digit (memory.get pointer) index = 2
  assignable : ∀ index, opcode.params[index]? = some .destination →
    digit (memory.get pointer) index ≠ 1
  positions : ∀ index, opcode.params[index]? = some .value → digit (memory.get pointer) index = 0 →
    0 ≤ (memory.get (pointer + 1 + index)).toInt
  offsets : ∀ index, opcode.params[index]? = some .value → digit (memory.get pointer) index = 2 →
    0 ≤ base.toInt + (memory.get (pointer + 1 + index)).toInt

variable {memory : Memory} {base : Word} {pointer index stop : Nat} {kind : ParamKind}
  {fault : FaultKind}

theorem clamp_neg_iff (value : Int) : Word.clamp value < 0 ↔ value < 0 := by
  unfold Word.clamp
  omega

theorem Violates.unique {condition : Condition} {fault other : Nat × FaultKind}
    (violated : Violates memory base pointer condition fault)
    (again : Violates memory base pointer condition other) : other = fault := by
  cases violated <;> cases again <;> first | rfl | omega

theorem Violates.firstFault {condition : Condition} {more : List Condition}
    {fault error : Nat × FaultKind} (violated : Violates memory base pointer condition fault) :
    FirstFault (fun _ => Violates memory base pointer) (condition :: more) error ↔ error = fault :=
  firstFault_cons_of_faulty violated fun _ => violated.unique

theorem violates_opcode (unknown : Opcode.ofCode? (code (memory.get pointer)) = none) :
    Violates memory base pointer .opcode (pointer + 1, .invalidOpcode (memory.get pointer)) := by
  refine .opcode fun opcode names => ?_
  rw [names_iff, unknown] at names
  cases names

theorem not_violates_mode {mode : Mode}
    (known : InstructionWord.mode (memory.get pointer) index = .ok mode)
    (fits : kind = .destination → mode ≠ .immediate) (other : Nat × FaultKind) :
    ¬ Violates memory base pointer (.mode kind index) other := by
  rcases digit_cases (memory.get pointer) index with
    ⟨value, read⟩ | ⟨value, read⟩ | ⟨value, read⟩ | ⟨_, _, _, read⟩ <;>
    cases read.symm.trans known <;> rintro (_ | _)
  all_goals first | omega | exact fits rfl rfl

theorem firstFault_address {mode : Mode} {more : List Condition} {error : Nat × FaultKind}
    (known : InstructionWord.mode (memory.get pointer) index = .ok mode) :
    FirstFault (fun _ => Violates memory base pointer) (.address .value index :: more) error ↔
      match fetch memory base mode (memory.get (pointer + 1 + index)) with
      | .ok _ => FirstFault (fun _ => Violates memory base pointer) more error
      | .error fault => error = (pointer + 2 + index, fault) := by
  rcases digit_cases (memory.get pointer) index with
    ⟨value, read⟩ | ⟨value, read⟩ | ⟨value, read⟩ | ⟨_, _, _, read⟩ <;>
    cases read.symm.trans known
  · rw [fetch_indirect (by decide)]
    simp only [placeOf, reduceCtorEq, if_false]
    by_cases negative : (memory.get (pointer + 1 + index)).toInt < 0
    · rw [(Violates.position value negative).firstFault]
      simp only [negative, if_true, Int64.ofInt_toInt]
    · have sound : ∀ other, ¬ Violates memory base pointer (.address .value index) other := by
        rintro other (_ | _) <;> omega
      rw [firstFault_cons_of_sound sound]
      simp only [negative, if_false]
  · have sound : ∀ other, ¬ Violates memory base pointer (.address .value index) other := by
      rintro other (_ | _) <;> omega
    exact firstFault_cons_of_sound sound
  · rw [fetch_indirect (by decide)]
    simp only [placeOf, if_true, clamp_neg_iff]
    by_cases negative : base.toInt + (memory.get (pointer + 1 + index)).toInt < 0
    · rw [(Violates.relative value negative).firstFault]
      simp only [negative, if_true]
    · have sound : ∀ other, ¬ Violates memory base pointer (.address .value index) other := by
        rintro other (_ | _) <;> omega
      rw [firstFault_cons_of_sound sound]
      simp only [negative, if_false]

/-- The three conditions on a parameter are those of reading it. -/
theorem firstFault_ofParam_append {more : List Condition} {error : Nat × FaultKind} :
    FirstFault (fun _ => Violates memory base pointer)
        (Condition.ofParam (kind, index) ++ more) error ↔
      match readParam memory base (memory.get pointer) kind index (pointer + 1 + index) with
      | .ok _ => FirstFault (fun _ => Violates memory base pointer) more error
      | .error fault => error = (if memory.size ≤ pointer + 1 + index then pointer + 1 + index
          else pointer + 2 + index, fault) := by
  simp only [Condition.ofParam, List.cons_append, List.nil_append]
  by_cases ends : memory.size ≤ pointer + 1 + index
  · rw [(Violates.present ends).firstFault]
    simp only [readParam, ends, if_true]
  · have present : ∀ other, ¬ Violates memory base pointer (.present index) other := by
      rintro other ⟨⟩
      contradiction
    rw [firstFault_cons_of_sound present]
    simp only [readParam, ends, if_false]
    cases known : InstructionWord.mode (memory.get pointer) index with
    | error wrong =>
        rcases digit_cases (memory.get pointer) index with
          ⟨_, read⟩ | ⟨_, read⟩ | ⟨_, read⟩ | ⟨zero, one, two, read⟩ <;>
          cases read.symm.trans known
        exact (Violates.mode zero one two).firstFault
    | ok mode =>
        cases kind with
        | value =>
            rw [firstFault_cons_of_sound (not_violates_mode known (by rintro ⟨⟩)),
              firstFault_address known]
            cases fetched : fetch memory base mode (memory.get (pointer + 1 + index)) <;>
              simp only [readOperand, fetched, Except.map]
        | destination =>
            by_cases immediate : mode = .immediate
            · subst immediate
              have one : digit (memory.get pointer) index = 1 := by
                rcases digit_cases (memory.get pointer) index with
                  ⟨_, read⟩ | ⟨value, read⟩ | ⟨_, read⟩ | ⟨_, _, _, read⟩ <;>
                  cases read.symm.trans known
                exact value
              exact (Violates.immediate one).firstFault
            · rw [firstFault_cons_of_sound (not_violates_mode known fun _ => immediate),
                firstFault_cons_of_sound (by rintro other ⟨⟩)]
              simp only [readOperand, immediate, if_false]

variable {kinds rest : List ParamKind} {word : Word}

theorem readOperands_eq_error_iff :
    readOperands memory base (memory.get pointer) kinds index (pointer + 1 + index) =
        (stop, .error fault) ↔
      FirstFault (fun _ => Violates memory base pointer)
        ((kinds.zipIdx index).flatMap Condition.ofParam) (stop, fault) := by
  induction kinds generalizing index with
  | nil => exact iff_of_false (by rintro ⟨⟩) not_firstFault_nil
  | cons kind rest ih =>
      rw [List.zipIdx_cons, List.flatMap_cons, firstFault_ofParam_append]
      cases read : readParam memory base (memory.get pointer) kind index (pointer + 1 + index) with
      | error first =>
          rw [readOperands_failed read, show pointer + 2 + index = pointer + 1 + index + 1 by omega]
          exact ⟨by rintro ⟨⟩; rfl, by rintro ⟨⟩; rfl⟩
      | ok operand =>
          rw [readOperands_ok read, ← ih, Prod.mk.injEq, map_eq_error_iff]
          exact Prod.mk_inj.symm

theorem readOperands_cons_eq_ok_iff {operands : Operands} :
    readOperands memory base word (kind :: rest) index pointer = (stop, .ok operands) ↔
      ∃ operand others, readParam memory base word kind index pointer = .ok operand ∧
        readOperands memory base word rest (index + 1) (pointer + 1) = (stop, .ok others) ∧
        operand.before others = operands := by
  cases read : readParam memory base word kind index pointer with
  | error fault => simp [readOperands_failed read]
  | ok operand =>
      rw [readOperands_ok read]
      obtain ⟨reached, answer⟩ := readOperands memory base word rest (index + 1) (pointer + 1)
      cases answer <;> simp [Except.map]

theorem readOperands_stop {operands : Operands}
    (read : readOperands memory base word kinds index pointer = (stop, .ok operands)) :
    stop = pointer + kinds.length := by
  induction kinds generalizing index pointer operands with
  | nil =>
      cases read
      rfl
  | cons kind rest ih =>
      obtain ⟨operand, others, _, later, _⟩ := readOperands_cons_eq_ok_iff.mp read
      rw [ih later, List.length_cons]
      omega

section Alike

variable {other : Memory} {another : Word}

theorem fetch_alike {mode : Mode} {raw value : Word}
    (fetched : fetch memory base mode raw = .ok value) :
    ∃ found, fetch other base mode raw = .ok found := by
  by_cases immediate : mode = .immediate
  · subst immediate
    exact ⟨raw, rfl⟩
  · rw [fetch_indirect immediate] at fetched ⊢
    split at fetched <;> rename_i negative
    · cases fetched
    · exact ⟨_, if_neg negative⟩

theorem readParam_alike {operand : Operand} (size : other.size = memory.size)
    (raw : other.get pointer = memory.get pointer)
    (mode : InstructionWord.mode another index = InstructionWord.mode word index)
    (read : readParam memory base word kind index pointer = .ok operand) :
    ∃ found, readParam other base another kind index pointer = .ok found ∧
      ∀ others values, ∃ more,
        found.before { others with values } = { operand.before others with values := more } := by
  simp only [readParam, size, raw, mode] at read ⊢
  split at read <;> rename_i ends
  · cases read
  · rw [if_neg ends]
    cases known : InstructionWord.mode word index with
    | error digit =>
        rw [known] at read
        cases read
    | ok mode =>
        simp only [known] at read ⊢
        cases kind with
        | value =>
            rw [readOperand] at read
            cases fetched : fetch memory base mode (memory.get pointer) with
            | error fault =>
                rw [fetched] at read
                cases read
            | ok value =>
                rw [fetched] at read
                cases read
                obtain ⟨found, again⟩ := fetch_alike fetched
                have here : readOperand other base .value mode (memory.get pointer) =
                    .ok (.value found) := by
                  rw [readOperand, again]
                  rfl
                exact ⟨.value found, here, fun others values => ⟨_, rfl⟩⟩
        | destination =>
            refine ⟨operand, read, fun others values => ⟨values, ?_⟩⟩
            simp only [readOperand] at read
            split at read <;> cases read
            rfl

/-- A memory with the same cells from a pointer on and a word with the same modes give the same
operands, but for the values. -/
theorem readOperands_alike {operands : Operands} (size : other.size = memory.size)
    (cells : ∀ address, pointer ≤ address → other.get address = memory.get address)
    (modes : ∀ place, index ≤ place → place < index + kinds.length →
      InstructionWord.mode another place = InstructionWord.mode word place)
    (read : readOperands memory base word kinds index pointer = (stop, .ok operands)) :
    ∃ values, readOperands other base another kinds index pointer =
      (stop, .ok { operands with values }) := by
  induction kinds generalizing index pointer operands with
  | nil =>
      cases read
      exact ⟨[], rfl⟩
  | cons kind rest ih =>
      rw [List.length_cons] at modes
      obtain ⟨operand, others, first, later, rfl⟩ := readOperands_cons_eq_ok_iff.mp read
      obtain ⟨found, here, same⟩ := readParam_alike size (cells pointer (Nat.le_refl pointer))
        (modes index (Nat.le_refl index) (by omega)) first
      obtain ⟨values, again⟩ := ih (fun address above => cells address (by omega))
        (fun place above below => modes place (by omega) (by omega)) later
      obtain ⟨more, whole⟩ := same others values
      exact ⟨more, readOperands_cons_eq_ok_iff.mpr ⟨found, _, here, again, whole⟩⟩

end Alike

theorem decode_eq_ok_iff {instruction : Instruction} :
    decode memory base pointer = (stop, .ok instruction) ↔
      pointer < memory.size ∧ Names (memory.get pointer) instruction.opcode ∧
        instruction.address = pointer ∧
        readOperands memory base (memory.get pointer) instruction.opcode.params 0 (pointer + 1) =
          (stop, .ok instruction.operands) := by
  constructor
  · intro decoded
    by_cases inside : pointer < memory.size
    · cases known : Opcode.ofCode? (code (memory.get pointer)) with
      | none =>
          rw [decode_unknown inside known] at decoded
          cases decoded
      | some opcode =>
          simp only [decode, Nat.not_le.mpr inside, if_false, known] at decoded
          split at decoded <;> rename_i read <;> cases decoded
          exact ⟨inside, names_iff.mpr known, rfl, read⟩
    · rw [decode_pastEnd (Nat.not_lt.mp inside)] at decoded
      cases decoded
  · rintro ⟨inside, names, rfl, read⟩
    exact decode_ok inside (names_iff.mp names) read

theorem decode_eq_error_iff {error : Fault} :
    decode memory base pointer = (stop, .error error) ↔
      error.address = pointer ∧
        FirstFault (fun _ => Violates memory base pointer) (conditions memory pointer)
          (stop, error.kind) := by
  rw [conditions, List.cons_append, List.cons_append, List.nil_append]
  by_cases past : memory.size ≤ pointer
  · rw [decode_pastEnd past, (Violates.inside past).firstFault]
    obtain ⟨kind, address⟩ := error
    simp [eq_comm, and_comm, and_left_comm]
  · have inside : ∀ other, ¬ Violates memory base pointer .inside other := by
      rintro other ⟨⟩
      contradiction
    rw [firstFault_cons_of_sound inside]
    cases known : Opcode.ofCode? (code (memory.get pointer)) with
    | none =>
        rw [decode_unknown (Nat.not_le.mp past) known, (violates_opcode known).firstFault]
        obtain ⟨kind, address⟩ := error
        simp [eq_comm, and_comm, and_left_comm]
    | some opcode =>
        have named : ∀ other, ¬ Violates memory base pointer .opcode other := by
          intro other violated
          cases violated with
          | opcode unknown => exact unknown opcode (names_iff.mpr known)
        rw [firstFault_cons_of_sound named, Option.map_some, Option.getD_some,
          ← readOperands_eq_error_iff]
        obtain ⟨kind, address⟩ := error
        simp only [decode, past, if_false, known, Nat.add_zero]
        rcases readOperands memory base (memory.get pointer) opcode.params 0 (pointer + 1) with
          ⟨reached, fault | operands⟩ <;> simp [eq_comm, and_comm, and_left_comm]

/-- Where decoding fails, it is one of the conditions that fails. -/
theorem exists_violates_of_decode {error : Fault}
    (decoded : decode memory base pointer = (stop, .error error)) :
    ∃ condition ∈ conditions memory pointer,
      Violates memory base pointer condition (stop, error.kind) := by
  obtain ⟨before, condition, after, asked, violated, _⟩ := (decode_eq_error_iff.mp decoded).2
  exact ⟨condition, by simp [asked], violated⟩

variable {opcode : Opcode} {condition : Condition}

theorem mem_conditions_iff (names : Names (memory.get pointer) opcode) :
    condition ∈ conditions memory pointer ↔
      condition = .inside ∨ condition = .opcode ∨
        ∃ kind index, opcode.params[index]? = some kind ∧
          condition ∈ Condition.ofParam (kind, index) := by
  simp only [conditions, names_iff.mp names, Option.map_some, Option.getD_some, List.mem_append,
    List.mem_cons, List.not_mem_nil, or_false, List.mem_flatMap, Prod.exists,
    List.mem_zipIdx_iff_getElem?, or_assoc]

theorem Complete.sound (complete : Complete memory base pointer opcode)
    (asked : condition ∈ conditions memory pointer) (error : Nat × FaultKind) :
    ¬ Violates memory base pointer condition error := by
  have whole := complete.whole
  intro violated
  obtain rfl | rfl | ⟨kind, index, found, asked⟩ := (mem_conditions_iff complete.names).mp asked
  · cases violated with
    | inside past => exact Nat.not_lt.mpr past complete.inside
  · cases violated with
    | opcode unknown => exact unknown opcode complete.names
  · have below : index < opcode.arity := (List.getElem?_eq_some_iff.mp found).1
    have modes := complete.modes index below
    simp only [Condition.ofParam, List.mem_cons, List.not_mem_nil, or_false] at asked
    rw [Opcode.width] at whole
    obtain rfl | rfl | rfl := asked
    · cases violated with
      | present ends => omega
    · cases violated with
      | mode zero one two => omega
      | immediate one => exact complete.assignable index found one
    · cases violated with
      | position zero negative =>
          exact Int.not_lt.mpr (complete.positions index found zero) negative
      | relative two negative =>
          exact Int.not_lt.mpr (complete.offsets index found two) negative

theorem Complete.of_sound (names : Names (memory.get pointer) opcode)
    (sound : ∀ condition ∈ conditions memory pointer, ∀ error,
      ¬ Violates memory base pointer condition error) :
    Complete memory base pointer opcode := by
  have param {kind : ParamKind} {index : Nat} (found : opcode.params[index]? = some kind) :
      (∀ error, ¬ Violates memory base pointer (.present index) error) ∧
        (∀ error, ¬ Violates memory base pointer (.mode kind index) error) ∧
        ∀ error, ¬ Violates memory base pointer (.address kind index) error := by
    refine ⟨sound _ ?_, sound _ ?_, sound _ ?_⟩ <;> rw [mem_conditions_iff names] <;>
      exact .inr (.inr ⟨kind, index, found, by simp [Condition.ofParam]⟩)
  have inside : pointer < memory.size := by
    by_contra past
    exact sound .inside ((mem_conditions_iff names).mpr (.inl rfl)) _ (.inside (Nat.not_lt.mp past))
  refine ⟨inside, names, ?_, ?_, ?_, ?_, ?_⟩
  · rw [Opcode.width, Opcode.arity]
    by_contra short
    have below : opcode.params.length - 1 < opcode.params.length := by omega
    obtain ⟨present, _, _⟩ := param (List.getElem?_eq_getElem below)
    exact present _ (.present (by omega))
  · intro index below
    obtain ⟨_, mode, _⟩ := param (List.getElem?_eq_getElem below)
    by_contra wrong
    rw [not_or, not_or] at wrong
    exact mode _ (.mode wrong.1 wrong.2.1 wrong.2.2)
  · intro index found one
    exact (param found).2.1 _ (.immediate one)
  · intro index found zero
    by_contra negative
    exact (param found).2.2 _ (.position zero (Int.not_le.mp negative))
  · intro index found two
    by_contra negative
    exact (param found).2.2 _ (.relative two (Int.not_le.mp negative))

theorem exists_complete_iff :
    (∃ opcode, Complete memory base pointer opcode) ↔
      ¬ ∃ error, FirstFault (fun _ => Violates memory base pointer) (conditions memory pointer)
        error := by
  rw [exists_firstFault_iff_mem]
  constructor
  · rintro ⟨opcode, complete⟩ ⟨condition, asked, error, violated⟩
    exact complete.sound asked error violated
  · intro sound
    have each : ∀ condition ∈ conditions memory pointer, ∀ error,
        ¬ Violates memory base pointer condition error :=
      fun condition asked error violated => sound ⟨condition, asked, error, violated⟩
    cases known : Opcode.ofCode? (code (memory.get pointer)) with
    | some opcode => exact ⟨opcode, .of_sound (names_iff.mpr known) each⟩
    | none =>
        have asked : Condition.opcode ∈ conditions memory pointer := by simp [conditions]
        exact absurd (violates_opcode known) (each .opcode asked _)

theorem exists_ok_iff_complete :
    (∃ stop instruction, decode memory base pointer = (stop, .ok instruction)) ↔
      ∃ opcode, Complete memory base pointer opcode := by
  rw [exists_complete_iff]
  constructor
  · rintro ⟨stop, instruction, decoded⟩ ⟨⟨reached, fault⟩, first⟩
    have failed : decode memory base pointer =
        (reached, .error { kind := fault, address := pointer }) :=
      decode_eq_error_iff.mpr ⟨rfl, first⟩
    rw [decoded] at failed
    cases failed
  · intro sound
    rcases decoded : decode memory base pointer with ⟨stop, error | instruction⟩
    · exact absurd ⟨_, (decode_eq_error_iff.mp decoded).2⟩ sound
    · exact ⟨stop, instruction, rfl⟩

/-- Decoding succeeds just if a complete instruction stands at the pointer. Then it moves past it,
and of the instruction word only the lowest digits, two and one for each parameter, count for the
opcode, the modes and the destination. Otherwise the fault is the first condition that does not
hold, at the address of the instruction, and the pointer has moved past the cells that were read. -/
theorem decoding_stops_at_first_violated_condition (memory : Memory) (base : Word) (pointer : Nat) :
    ((∃ stop instruction, decode memory base pointer = (stop, .ok instruction)) ↔
      ∃ opcode, Complete memory base pointer opcode) ∧
    (∀ stop instruction, decode memory base pointer = (stop, .ok instruction) →
      Complete memory base pointer instruction.opcode ∧
        instruction.address = pointer ∧ stop = pointer + instruction.opcode.width ∧
        ∀ word, lowest word (2 + instruction.opcode.arity) =
            lowest (memory.get pointer) (2 + instruction.opcode.arity) →
          (∃ values, decode (memory.set pointer word) base pointer =
            (stop, .ok { instruction with operands := { instruction.operands with values } })) ∧
          ∀ index < instruction.opcode.arity,
            InstructionWord.mode word index = InstructionWord.mode (memory.get pointer) index) ∧
    ∀ stop error, decode memory base pointer = (stop, .error error) ↔
      error.address = pointer ∧
        FirstFault (fun _ => Violates memory base pointer) (conditions memory pointer)
          (stop, error.kind) := by
  refine ⟨exists_ok_iff_complete, fun stop instruction decoded => ?_,
    fun stop error => decode_eq_error_iff⟩
  obtain ⟨inside, names, address, read⟩ := decode_eq_ok_iff.mp decoded
  obtain ⟨opcode, complete⟩ := exists_ok_iff_complete.mp ⟨stop, instruction, decoded⟩
  have same : opcode = instruction.opcode :=
    Option.some.inj ((names_iff.mp complete.names).symm.trans (names_iff.mp names))
  subst opcode
  refine ⟨complete, address, ?_, fun word same => ⟨?_, fun index below =>
    mode_eq_of_lowest_eq same below⟩⟩
  · rw [readOperands_stop read, Opcode.width, Opcode.arity]
    omega
  · have written : (memory.set pointer word).get pointer = word := by
      rw [Memory.get_set, if_pos rfl]
    have named : Names word instruction.opcode := by
      rw [names_iff, code_eq_of_lowest_eq same, ← names_iff]
      exact names
    obtain ⟨values, again⟩ := readOperands_alike (Memory.size_set memory pointer word)
      (fun address above => by rw [Memory.get_set, if_neg (by omega)])
      (fun index _ below => mode_eq_of_lowest_eq same (by rw [Opcode.arity]; omega)) read
    refine ⟨values, decode_eq_ok_iff.mpr ⟨?_, ?_, address, ?_⟩⟩
    · rw [Memory.size_set]
      exact inside
    · rw [written]
      exact named
    · rw [written]
      exact again

/-- A digit above the modes does not count, and a negative address is reported as far as a word
goes. -/
theorem digits_and_addresses_out_of_range :
    let product := Memory.ofProgram ⟨[1002, 4, 3, 4, 33]⟩
    let output := Memory.ofProgram ⟨[204, -1]⟩
    (∃ values, decode (product.set 0 701002) 0 0 = (4, .ok
      { opcode := .mul, address := 0,
        operands := { values, destination := some { mode := .position, raw := 4 } } })) ∧
    ¬ (∃ opcode, Complete output Int64.minValue 0 opcode) ∧
    FirstFault (fun _ => Violates output Int64.minValue 0) (conditions output 0)
      (2, .negativeAddress Int64.minValue) := by
  intro product output
  obtain ⟨_, reads, _⟩ := decoding_stops_at_first_violated_condition product 0 0
  obtain ⟨succeeds, _, fails⟩ :=
    decoding_stops_at_first_violated_condition output Int64.minValue 0
  have decoded : decode product 0 0 = (4, .ok
      { opcode := .mul, address := 0,
        operands := { values := [33, 3], destination := some ⟨.position, 4⟩ } }) := by
    decide
  have failed : decode output Int64.minValue 0 =
      (2, .error { kind := .negativeAddress Int64.minValue, address := 0 }) := by
    decide
  obtain ⟨_, _, _, alike⟩ := reads 4 _ decoded
  refine ⟨(alike 701002 (by decide)).1, ?_, ((fails 2 _).mp failed).2⟩
  rw [← succeeds, failed]
  rintro ⟨stop, instruction, ⟨⟩⟩

end Instruction

end Intcode
