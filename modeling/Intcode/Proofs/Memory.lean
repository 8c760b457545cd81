import Intcode.Memory

namespace Intcode.Memory

@[simp] theorem size_ofProgram (program : Program) : (ofProgram program).size = program.size := by
  simp [ofProgram, size, Program.size]

theorem get_ofProgram (program : Program) (address : Nat) :
    (ofProgram program).get address = program.words[address]?.getD 0 := by
  cases word : program.words[address]? <;> simp [ofProgram, get, word]

@[simp] theorem size_set (memory : Memory) (address : Nat) (word : Word) :
    (memory.set address word).size = memory.size := by
  unfold set
  split
  · simp only [size, Array.size_setIfInBounds]
  · rfl

/-- The last write wins, and no other cell changes. -/
theorem get_set (memory : Memory) (address other : Nat) (word : Word) :
    (memory.set address word).get other = if other = address then word else memory.get other := by
  by_cases dense : address < memory.dense.size
  · by_cases same : other = address
    · subst other
      simp [set, get, dense]
    · simp [set, get, dense, same, Ne.symm same]
  · by_cases same : other = address
    · subst other
      simp [set, get, dense]
    · simp only [set, get, dense, if_false, same]
      rw [Std.ExtTreeMap.getElem?_insert]
      simp [Std.LawfulEqCmp.compare_eq_iff_eq, Ne.symm same]

@[simp] theorem extent_ofProgram (program : Program) :
    (ofProgram program).extent = program.size := by
  simp only [extent, ofProgram, Std.ExtTreeMap.maxKey?_empty]
  exact size_ofProgram program

/-- A write reaches as far as its cell, if memory did not reach further before. -/
theorem extent_set {memory : Memory} (proper : memory.size ≤ memory.extent) (address : Nat)
    (word : Word) : (memory.set address word).extent = max memory.extent (address + 1) := by
  by_cases dense : address < memory.dense.size
  · have same : (memory.set address word).extent = memory.extent := by
      simp only [extent, set, dense, if_true, size, Array.size_setIfInBounds]
    have inside : address < memory.size := dense
    rw [same]
    omega
  · have outside : memory.size ≤ address := Nat.not_lt.mp dense
    simp only [extent, set, dense, if_false, Std.ExtTreeMap.maxKey?_insert]
    cases highest : memory.sparse.maxKey? with
    | none =>
        simp only [Option.elim]
        omega
    | some highest =>
        simp only [Option.elim, Nat.isLE_compare]
        split <;> omega

end Intcode.Memory
