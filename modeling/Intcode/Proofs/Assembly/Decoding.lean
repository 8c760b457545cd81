import Intcode.Proofs.Assembly.Image
import Intcode.Proofs.Instruction.Encoding
import Intcode.Proofs.Instruction.Operands

namespace Intcode.Assembly

namespace Layout

def operandsOf (items : List Item) (store : String → Word) :
    List ParamKind → List Argument → Operands
  | .value :: kinds, argument :: arguments =>
      let rest := operandsOf items store kinds arguments
      { rest with values := valueOf items store argument :: rest.values }
  | .destination :: kinds, argument :: arguments =>
      { operandsOf items store kinds arguments with
        destination := some { mode := .position, raw := wordOf items argument } }
  | _, _ => {}

/-- Memory in which the code stands as it was assembled and the variables have certain
values. -/
structure Image (items : List Item) (store : String → Word) (memory : Memory) : Prop where
  size : memory.size = Layout.size items
  code : ∀ index item offset, items[index]? = some item → item.isInstruction = true →
    offset < item.width →
      (cells items item)[offset]? = some (memory.get (addressOf items index + offset))
  vars : ∀ name address, varAt? items name = some address → memory.get address = store name

variable {items : List Item} {store : String → Word} {memory : Memory} {program : Program}

theorem Image.ofProgram (assembled : Assembled items program) :
    Image items (fun name => (initial? items name).getD 0) (Memory.ofProgram program) := by
  have stored {index offset : Nat} {item : Item} (found : items[index]? = some item)
      (inside : offset < item.width) :
      (cells items item)[offset]? =
        some ((Memory.ofProgram program).get (addressOf items index + offset)) := by
    have listed := words_getElem? found inside
    have here : offset < (cells items item).length := by rwa [length_cells]
    rw [Memory.get_ofProgram, assembled.words, listed, List.getElem?_eq_getElem here,
      Option.getD_some]
  refine ⟨?_, ?_, ?_⟩
  · rw [Memory.size_ofProgram, Program.size, assembled.words, length_words]
  · intro index item offset found _ inside
    exact stored found inside
  · intro name address found
    obtain ⟨index, initial, stands, declared, rfl⟩ := initial?_eq_some found
    have cell := stored stands Nat.zero_lt_one
    rw [declared, Option.getD_some]
    exact (Option.some.inj cell).symm

/-- Writing the cell of a variable changes the variable and nothing else. -/
theorem Image.set (image : Image items store memory) {name : String} {address : Nat}
    (found : varAt? items name = some address) (word : Word) :
    Image items (Function.update store name word) (memory.set address word) := by
  obtain ⟨varIndex, initial, _, stands, rfl⟩ := varAt?_eq_some found
  refine ⟨?_, ?_, ?_⟩
  · rw [Memory.size_set, image.size]
  · intro index item offset foundItem instruction inside
    have apart : addressOf items index + offset ≠ addressOf items varIndex := by
      intro same
      have different : index ≠ varIndex := by
        rintro rfl
        rw [stands] at foundItem
        cases foundItem
        cases instruction
      exact addressOf_add_ne foundItem stands different inside Nat.zero_lt_one same
    rw [Memory.get_set, if_neg apart]
    exact image.code index item offset foundItem instruction inside
  · intro other otherAddress foundOther
    rw [Memory.get_set]
    by_cases same : other = name
    · subst other
      rw [found] at foundOther
      cases foundOther
      rw [if_pos rfl, Function.update_self]
    · have apart : otherAddress ≠ addressOf items varIndex := by
        rintro rfl
        exact same (varAt?_injective foundOther found)
      rw [if_neg apart, Function.update_of_ne same]
      exact image.vars other otherAddress foundOther

theorem varAt?_lt {name : String} {address : Nat} (found : varAt? items name = some address) :
    address < size items := by
  obtain ⟨index, initial, _, stands, rfl⟩ := varAt?_eq_some found
  exact addressOf_add_lt stands Nat.zero_lt_one

theorem resolveAddress_position {address : Nat} (small : address < 2 ^ 63) (base : Word) :
    resolveAddress .position (Int64.ofNat address) base = .ok address := by
  have natural := Int64.toInt_ofNat_of_lt small
  simp only [resolveAddress, reduceCtorEq, if_false, Word.address?_eq, natural]
  rw [if_neg (by omega), Int.toNat_natCast]

section Operands

variable (image : Image items store memory) (fits : size items < 2 ^ 63)

include image fits

theorem fetch_eq {argument : Argument} (resolved : Resolves items argument) (base : Word) :
    Instruction.fetch memory base (if argument.isImmediate then .immediate else .position)
      (wordOf items argument) = .ok (valueOf items store argument) := by
  cases argument with
  | number value => rfl
  | label name => rfl
  | var name =>
      obtain ⟨address, found⟩ := Option.isSome_iff_exists.mp resolved
      have small := Nat.lt_trans (varAt?_lt found) fits
      have stored := image.vars name address found
      simp only [Instruction.fetch, Argument.isImmediate, Bool.false_eq_true, if_false, wordOf,
        found, Option.getD_some, resolveAddress_position small, stored, valueOf]

theorem readOperands_eq {base word : Word} {kinds : List ParamKind} {arguments : List Argument}
    {index pointer : Nat} (proper : List.Forall₂ Argument.Fits kinds arguments)
    (resolved : ∀ argument ∈ arguments, Resolves items argument)
    (modes : ∀ offset argument, arguments[offset]? = some argument →
      InstructionWord.mode word (index + offset) =
        .ok (if argument.isImmediate then .immediate else .position))
    (stored : ∀ offset argument, arguments[offset]? = some argument →
      memory.get (pointer + offset) = wordOf items argument)
    (inside : pointer + kinds.length ≤ memory.size) :
    Instruction.readOperands memory base word kinds index pointer =
      (pointer + kinds.length, .ok (operandsOf items store kinds arguments)) := by
  induction proper generalizing index pointer with
  | nil => rfl
  | @cons kind argument kinds arguments fit proper ih =>
      rw [List.length_cons] at inside
      obtain ⟨known, resolved⟩ := List.forall_mem_cons.mp resolved
      have mode := modes 0 argument rfl
      have here := stored 0 argument rfl
      have rest := ih resolved
        (fun offset argument found => by
          have further := modes (offset + 1) argument found
          rwa [Nat.add_comm offset, ← Nat.add_assoc] at further)
        (fun offset argument found => by
          have further := stored (offset + 1) argument found
          rwa [Nat.add_comm offset, ← Nat.add_assoc] at further)
        (by omega)
      have below : ¬ memory.size ≤ pointer := by omega
      have after : pointer + 1 + kinds.length = pointer + (kind :: kinds).length := by
        rw [List.length_cons]
        omega
      simp only [Instruction.readOperands, below, if_false, Nat.add_zero] at mode here ⊢
      rw [mode, here, rest, after]
      cases kind with
      | value =>
          simp only [Instruction.readOperand, fetch_eq image fits known]
          rfl
      | destination =>
          cases argument with
          | number value => cases fit
          | label name => cases fit
          | var name => rfl

end Operands

/-- The decoder reads an instruction as the text has it. -/
theorem decode_eq (assembled : Assembled items program) (image : Image items store memory)
    {index : Nat} {opcode : Opcode} {slots : Vector Argument maxArity}
    (found : items[index]? = some (.instruction opcode slots)) (base : Word) :
    Instruction.decode memory base (addressOf items index) =
      (addressOf items index + opcode.width,
        .ok { opcode,
              address := addressOf items index,
              operands := operandsOf items store opcode.params
                (Item.instruction opcode slots).arguments }) := by
  have member := List.mem_of_getElem? found
  have proper := assembled.proper _ member
  have arity := length_arguments opcode slots
  have most : opcode.arity ≤ 3 := Opcode.arity_le opcode
  have ends : addressOf items index + (opcode.arity + 1) ≤ memory.size := by
    have next : addressOf items (index + 1) ≤ size items := addressOf_le_size (index + 1)
    rw [addressOf_succ found] at next
    rw [image.size]
    exact next
  have code := fun offset => image.code index _ offset found rfl
  have word : InstructionWord.encode opcode
      ((Item.instruction opcode slots).arguments.map Argument.isImmediate) =
        memory.get (addressOf items index) := Option.some.inj (code 0 (Nat.succ_pos opcode.arity))
  have flags : ((Item.instruction opcode slots).arguments.map Argument.isImmediate).length ≤ 17 := by
    rw [List.length_map]
    omega
  have known : Opcode.ofCode? (InstructionWord.code (memory.get (addressOf items index))) =
      some opcode := by
    rw [← word, InstructionWord.code_encode flags, Opcode.ofCode?_code]
  have stop : addressOf items index + 1 + opcode.params.length =
      addressOf items index + opcode.width := by
    simp only [Opcode.width, Opcode.arity]
    omega
  have read : Instruction.readOperands memory base (memory.get (addressOf items index))
      opcode.params 0 (addressOf items index + 1) =
        (addressOf items index + opcode.width, .ok (operandsOf items store opcode.params
          (Item.instruction opcode slots).arguments)) := by
    rw [← stop]
    exact readOperands_eq image assembled.fits proper (assembled.resolved _ member)
      (fun offset argument stands => by
        rw [← word, Nat.zero_add, InstructionWord.mode_encode flags]
        simp only [List.getElem?_map, stands, Option.map_some, Option.some.injEq])
      (fun offset argument stands => by
        have within := (List.getElem?_eq_some_iff.mp stands).1
        have cell := code (offset + 1) (by simp only [Item.width, Opcode.width]; omega)
        simp only [cells, List.getElem?_cons_succ, List.getElem?_map, stands,
          Option.map_some] at cell
        rw [Nat.add_assoc, Nat.add_comm 1]
        exact (Option.some.inj cell).symm)
      (by have count : opcode.params.length = opcode.arity := rfl
          omega)
  exact Instruction.decode_ok (by omega) known read

/-- The arguments that are read. -/
def valueArguments : List ParamKind → List Argument → List Argument
  | .value :: kinds, argument :: arguments => argument :: valueArguments kinds arguments
  | .destination :: kinds, _ :: arguments => valueArguments kinds arguments
  | _, _ => []

/-- The variable that a result goes to. -/
def destination? : List ParamKind → List Argument → Option String
  | .destination :: _, .var name :: _ => some name
  | _ :: kinds, _ :: arguments => destination? kinds arguments
  | _, _ => none

/-- Is this the word an argument means before anything was run? -/
def Means (items : List Item) (word : Word) : Argument → Prop
  | .number value => word = value
  | .label name => ∃ address, labelAt? items name = some address ∧ word.toInt = address
  | .var name => initial? items name = some word

theorem values_operandsOf (kinds : List ParamKind) (arguments : List Argument) :
    (operandsOf items store kinds arguments).values =
      (valueArguments kinds arguments).map (valueOf items store) := by
  fun_induction valueArguments kinds arguments <;> simp_all [operandsOf]

theorem destination_operandsOf {kinds : List ParamKind} {arguments : List Argument}
    (proper : List.Forall₂ Argument.Fits kinds arguments) :
    (operandsOf items store kinds arguments).destination =
      (destination? kinds arguments).map fun name =>
        { mode := .position, raw := wordOf items (.var name) } := by
  induction proper with
  | nil => rfl
  | @cons kind argument kinds arguments fit proper ih =>
      cases kind with
      | value => simpa only [operandsOf, destination?] using ih
      | destination =>
          cases argument with
          | number value => cases fit
          | label name => cases fit
          | var name => rfl

theorem destination?_isSome {kinds : List ParamKind} {arguments : List Argument}
    (proper : List.Forall₂ Argument.Fits kinds arguments) :
    (destination? kinds arguments).isSome = true ↔ ParamKind.destination ∈ kinds := by
  induction proper with
  | nil => simp [destination?]
  | @cons kind argument kinds arguments fit proper ih =>
      cases kind with
      | value => simpa [destination?] using ih
      | destination =>
          cases argument with
          | number value => cases fit
          | label name => cases fit
          | var name => simp [destination?]

theorem means_valueOf {argument : Argument} (resolved : Resolves items argument)
    (fits : size items < 2 ^ 63) :
    Means items (valueOf items (fun name => (initial? items name).getD 0) argument) argument := by
  cases argument with
  | number value => rfl
  | label name =>
      obtain ⟨address, found⟩ := Option.isSome_iff_exists.mp resolved
      obtain ⟨index, _, _, rfl⟩ := labelAt?_eq_some found
      have small := Nat.lt_of_le_of_lt (addressOf_le_size index) fits
      refine ⟨addressOf items index, found, ?_⟩
      simp only [valueOf, found, Option.getD_some, Int64.toInt_ofNat_of_lt small]
  | var name =>
      obtain ⟨address, found⟩ := Option.isSome_iff_exists.mp resolved
      obtain ⟨index, initial, _, declared, _⟩ := initial?_eq_some found
      simp only [Means, valueOf, declared, Option.getD_some]

theorem mem_of_mem_valueArguments {kinds : List ParamKind} {arguments : List Argument}
    {argument : Argument} (member : argument ∈ valueArguments kinds arguments) :
    argument ∈ arguments := by
  fun_induction valueArguments kinds arguments <;> simp_all
  grind

theorem mem_of_destination? {kinds : List ParamKind} {arguments : List Argument} {name : String}
    (found : destination? kinds arguments = some name) : .var name ∈ arguments := by
  fun_induction destination? kinds arguments <;> simp_all

end Layout

open Layout

/-- Decoding takes every instruction of an assembled text back to what the text says there. -/
theorem decode_assembled {source : String} {program : Program}
    (accepted : assemble source = .ok program) (room : source.utf8ByteSize < 2 ^ 63) :
    ∃ statements, read source = .ok statements ∧
      ∀ index line opcode slots base,
        statements[index]? = some { line, item := .instruction opcode slots } →
          let items := statements.map Statement.item
          let arguments := (Item.instruction opcode slots).arguments
          ∃ operands : Operands,
            Instruction.decode (Memory.ofProgram program) base (addressOf items index) =
              (addressOf items index + opcode.width,
                .ok { opcode, address := addressOf items index, operands }) ∧
            List.Forall₂ (Means items) operands.values
              (valueArguments opcode.params arguments) ∧
            (ParamKind.destination ∈ opcode.params →
              ∃ name address place, destination? opcode.params arguments = some name ∧
                varAt? items name = some address ∧ operands.destination = some place ∧
                place.mode = .position ∧ place.raw.toInt = address) ∧
            (ParamKind.destination ∉ opcode.params → operands.destination = none) := by
  obtain ⟨statements, said, assembled⟩ := assembled_of_assemble accepted room
  refine ⟨statements, said, ?_⟩
  intro index line opcode slots base stands items arguments
  have found : items[index]? = some (.instruction opcode slots) := by
    simp only [items, List.getElem?_map, stands, Option.map_some]
  have member := List.mem_of_getElem? found
  have proper : List.Forall₂ Argument.Fits opcode.params arguments := assembled.proper _ member
  have resolved := assembled.resolved _ member
  have has := destination?_isSome proper
  have destination : (operandsOf items (fun name => (initial? items name).getD 0) opcode.params
      arguments).destination = (destination? opcode.params arguments).map fun name =>
        { mode := .position, raw := wordOf items (.var name) } := destination_operandsOf proper
  refine ⟨_, decode_eq assembled (Image.ofProgram assembled) found base, ?_, ?_, ?_⟩
  · rw [values_operandsOf, List.forall₂_map_left_iff, List.forall₂_same]
    intro argument read
    exact means_valueOf (resolved argument (mem_of_mem_valueArguments read)) assembled.fits
  · intro takes
    obtain ⟨name, named⟩ := Option.isSome_iff_exists.mp (has.mpr takes)
    have declared := resolved (.var name) (mem_of_destination? named)
    obtain ⟨address, known⟩ : ∃ address, varAt? items name = some address :=
      Option.isSome_iff_exists.mp declared
    refine ⟨name, address, _, named, known, by rw [destination, named]; rfl, rfl, ?_⟩
    have small := Nat.lt_trans (varAt?_lt known) assembled.fits
    simp only [wordOf, known, Option.getD_some, Int64.toInt_ofNat_of_lt small]
  · intro takesNot
    rw [destination, Option.map_eq_none_iff, ← Option.not_isSome_iff_eq_none, has]
    exact takesNot

theorem add_is_decoded :
    ∃ operands : Operands,
      Instruction.decode (Memory.ofProgram ⟨[1105, 1, 4, 5, 101, 4, 3, 3, 99]⟩) (-7) 4 =
        (8, .ok { opcode := .add, address := 4, operands }) ∧ operands.values.length = 2 := by
  have accepted : assemble "var x = 5\nloop:\nadd @loop x -> x\nend\n" =
      .ok ⟨[1105, 1, 4, 5, 101, 4, 3, 3, 99]⟩ := eq_ok_of_toOption (by decide +kernel)
  have said : read "var x = 5\nloop:\nadd @loop x -> x\nend\n" =
      .ok [⟨1, .var "x" 5⟩, ⟨2, .label "loop"⟩,
        ⟨3, .ofArguments .add [.label "loop", .var "x", .var "x"]⟩, ⟨4, .ofArguments .halt []⟩] :=
    eq_ok_of_toOption (by decide +kernel)
  obtain ⟨statements, saidAgain, decoded⟩ := decode_assembled accepted (by decide +kernel)
  rw [said] at saidAgain
  cases saidAgain
  obtain ⟨operands, answer, values, _⟩ := decoded 2 3 .add _ (-7) rfl
  exact ⟨operands, answer, values.length_eq⟩

end Intcode.Assembly
