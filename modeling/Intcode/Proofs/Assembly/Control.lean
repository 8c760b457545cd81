import Intcode.Proofs.Assembly.Interpreter

namespace Intcode.Assembly

open Layout

/-- From an index on there is an instruction in front of every variable. -/
def Clear (items : List Item) (index : Nat) : Prop :=
  ∀ (later : Nat) (name : String) (initial : Word), index ≤ later →
    items[later]? = some (.var name initial) →
      ∃ between opcode slots, index ≤ between ∧ between < later ∧
        items[between]? = some (.instruction opcode slots)

/-- What there is to find from a clear index on: the end, or an instruction. -/
inductive Fetches (items : List Item) (index : Nat) : Prop
  | pastEnd (fetched : Interpreter.fetch? items index = none)
      (ends : addressOf items index = size items) : Fetches items index
  | found {opcode : Opcode} {slots : Vector Argument maxArity} {stands : Nat}
      (instruction : items[stands]? = some (.instruction opcode slots))
      (fetched : Interpreter.fetch? items index =
        some (opcode, (Item.instruction opcode slots).arguments, stands + 1))
      (here : addressOf items index = addressOf items stands) : Fetches items index

variable {items : List Item} {index : Nat} {name : String}

theorem fetch?_of_label (label : items[index]? = some (.label name)) :
    Interpreter.fetch? items index = Interpreter.fetch? items (index + 1) := by
  obtain ⟨below, same⟩ := List.getElem?_eq_some_iff.mp label
  rw [Interpreter.fetch?, List.drop_eq_getElem_cons below, same]
  rfl

theorem Clear.fetches (clear : Clear items index) : Fetches items index := by
  -- The distance to the end shrinks with every label that control steps over.
  generalize distance : items.length - index = remaining
  induction remaining generalizing index with
  | zero =>
      have beyond : items.length ≤ index := by omega
      refine .pastEnd ?_ ?_
      · rw [Interpreter.fetch?, List.drop_eq_nil_of_le beyond]
        rfl
      · simp only [size, addressOf, place, List.take_of_length_le beyond, List.take_length]
  | succ remaining ih =>
      have below : index < items.length := by omega
      cases item : items[index] with
      | label name =>
          have label : items[index]? = some (.label name) := by
            rw [List.getElem?_eq_getElem below, item]
          have width : addressOf items (index + 1) = addressOf items index := addressOf_succ label
          have further : Clear items (index + 1) := by
            intro later other initial behind found
            obtain ⟨between, opcode, slots, lower, upper, instruction⟩ :=
              clear later other initial (by omega) found
            refine ⟨between, opcode, slots, ?_, upper, instruction⟩
            rcases Nat.lt_or_eq_of_le lower with before | same
            · exact before
            · subst between
              rw [label] at instruction
              cases instruction
          cases ih further (by omega) with
          | pastEnd fetched ends =>
              exact .pastEnd (by rw [fetch?_of_label label, fetched]) (by rw [← width, ends])
          | found instruction fetched here =>
              exact .found instruction (by rw [fetch?_of_label label, fetched])
                (by rw [← width, here])
      | var name initial =>
          have stands : items[index]? = some (.var name initial) := by
            rw [List.getElem?_eq_getElem below, item]
          obtain ⟨between, _, _, lower, upper, _⟩ := clear index name initial (Nat.le_refl _) stands
          omega
      | instruction opcode slots =>
          have stands : items[index]? = some (.instruction opcode slots) := by
            rw [List.getElem?_eq_getElem below, item]
          refine .found stands ?_ rfl
          rw [Interpreter.fetch?, List.drop_eq_getElem_cons below, item]
          rfl

/-- Behind every instruction that does not halt. -/
theorem Structured.clear_succ (structured : Structured items) {opcode : Opcode}
    {slots : Vector Argument maxArity} (stands : items[index]? = some (.instruction opcode slots))
    (continues : opcode ≠ .halt) : Clear items (index + 1) := by
  intro later name initial behind found
  rcases structured.vars later name initial found with
    none | ⟨last, haltSlots, before, halts, onlyVars⟩
  · exact absurd stands (none index opcode slots (by omega))
  · refine ⟨last, .halt, haltSlots, ?_, before, halts⟩
    rcases Nat.lt_trichotomy last index with earlier | same | after
    · obtain ⟨other, value, var⟩ := onlyVars index earlier (by omega)
      rw [stands] at var
      cases var
    · subst last
      rw [stands] at halts
      cases halts
      contradiction
    · exact after

theorem Structured.clear_label (structured : Structured items)
    (label : items[index]? = some (.label name)) : Clear items index := by
  obtain ⟨stop, ahead, onlyLabels, ends⟩ := structured.labels index name label
  intro later other initial behind found
  rcases Nat.lt_trichotomy later stop with before | same | after
  · rcases Nat.lt_or_eq_of_le behind with between | here
    · obtain ⟨label, stands⟩ := onlyLabels later between before
      rw [found] at stands
      cases stands
    · subst later
      rw [label] at found
      cases found
  · subst later
    rcases ends with none | ⟨opcode, slots, instruction⟩
    · rw [none] at found
      cases found
    · rw [instruction] at found
      cases found
  · rcases ends with none | ⟨opcode, slots, instruction⟩
    · have beyond := List.getElem?_eq_none_iff.mp none
      have inside := (List.getElem?_eq_some_iff.mp found).1
      omega
    · exact ⟨stop, opcode, slots, Nat.le_of_lt ahead, after, instruction⟩

theorem clear_begins (items : List Item) : Clear items (begins items) := by
  intro later name initial behind found
  have inside := (List.getElem?_eq_some_iff.mp found).1
  cases first : items.findIdx? Item.isInstruction with
  | none =>
      simp only [begins, first, Option.getD_none] at behind
      omega
  | some index =>
      simp only [begins, first, Option.getD_some] at behind ⊢
      obtain ⟨below, check, _⟩ := List.findIdx?_eq_some_iff_getElem.mp first
      cases item : items[index] with
      | label name =>
          rw [item] at check
          cases check
      | var name initial =>
          rw [item] at check
          cases check
      | instruction opcode slots =>
          have stands : items[index]? = some (.instruction opcode slots) := by
            rw [List.getElem?_eq_getElem below, item]
          refine ⟨index, opcode, slots, Nat.le_refl _, ?_, stands⟩
          rcases Nat.lt_or_eq_of_le behind with before | same
          · exact before
          · subst later
            rw [stands] at found
            cases found

end Intcode.Assembly
