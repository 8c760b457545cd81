import Intcode.Proofs.Memory

namespace Intcode

/-- A word that goes to a cell. -/
structure Store where
  address : Nat
  word : Word
deriving DecidableEq, Repr

namespace Memory

variable {memory : Memory} {program : Program} {stores more : List Store} {address : Nat}
  {word : Word}

/-- Carries out stores, the first of the list first. -/
def storeAll (memory : Memory) (stores : List Store) : Memory :=
  stores.foldl (fun memory store => memory.set store.address store.word) memory

/-- The highest of these cells that lies at or beyond `length`. -/
def highestBeyond? (length : Nat) (stores : List Store) : Option Nat :=
  ((stores.map Store.address).filter fun address => length ≤ address).max?

@[simp] theorem storeAll_nil : memory.storeAll [] = memory := rfl

@[simp] theorem storeAll_cons (store : Store) :
    memory.storeAll (store :: stores) = (memory.set store.address store.word).storeAll stores := rfl

theorem storeAll_append : memory.storeAll (stores ++ more) = (memory.storeAll stores).storeAll more :=
  List.foldl_append

@[simp] theorem size_storeAll : (memory.storeAll stores).size = memory.size := by
  induction stores generalizing memory with
  | nil => rfl
  | cons store rest ih => rw [storeAll_cons, ih, size_set]

/-- Just the cells beyond the dense ones are kept sparsely once they are written. -/
theorem mem_sparse_set {other : Nat} :
    other ∈ (memory.set address word).sparse ↔
      other ∈ memory.sparse ∨ memory.size ≤ other ∧ other = address := by
  by_cases dense : address < memory.dense.size
  · have outside : ¬ (memory.size ≤ other ∧ other = address) := by
      rintro ⟨beyond, rfl⟩
      exact Nat.not_lt.mpr beyond dense
    simp only [set, dense, if_true, outside, or_false]
  · have beyond : memory.size ≤ address := Nat.not_lt.mp dense
    simp only [set, dense, if_false, Std.ExtTreeMap.mem_insert, Std.LawfulEqCmp.compare_eq_iff_eq]
    constructor
    · rintro (rfl | kept)
      · exact .inr ⟨beyond, rfl⟩
      · exact .inl kept
    · rintro (kept | ⟨_, rfl⟩)
      · exact .inr kept
      · exact .inl rfl

theorem mem_sparse_storeAll :
    address ∈ (memory.storeAll stores).sparse ↔
      address ∈ memory.sparse ∨ memory.size ≤ address ∧ address ∈ stores.map Store.address := by
  induction stores generalizing memory with
  | nil => simp
  | cons store rest ih =>
      rw [storeAll_cons, ih, mem_sparse_set, size_set, List.map_cons, List.mem_cons, or_assoc,
        ← and_or_left]

theorem mem_sparse_stored :
    address ∈ ((ofProgram program).storeAll stores).sparse ↔
      program.size ≤ address ∧ address ∈ stores.map Store.address := by
  have untouched : address ∉ (ofProgram program).sparse := Std.ExtTreeMap.not_mem_empty
  rw [mem_sparse_storeAll, size_ofProgram, or_iff_right untouched]

theorem extent_eq (memory : Memory) :
    memory.extent = memory.sparse.maxKey?.elim memory.size (· + 1) := by
  unfold extent
  cases memory.sparse.maxKey? <;> rfl

/-- Memory reaches one past the highest cell that was written beyond the program. -/
theorem extent_stored :
    ((ofProgram program).storeAll stores).extent =
      (highestBeyond? program.size stores).elim program.size (· + 1) := by
  have highest : ((ofProgram program).storeAll stores).sparse.maxKey? =
      highestBeyond? program.size stores := by
    apply Option.ext
    intro address
    rw [Std.ExtTreeMap.maxKey?_eq_some_iff_mem_and_forall, highestBeyond?, List.max?_eq_some_iff]
    simp only [mem_sparse_stored, Nat.isLE_compare, List.mem_filter, decide_eq_true_eq,
      and_comm (a := program.size ≤ _)]
  rw [extent_eq, highest, size_storeAll, size_ofProgram]

theorem size_le_extent_stored : program.size ≤ ((ofProgram program).storeAll stores).extent := by
  rw [extent_stored]
  cases highest : highestBeyond? program.size stores with
  | none => exact Nat.le_refl _
  | some address =>
      obtain ⟨member, _⟩ := List.max?_eq_some_iff.mp highest
      have beyond := of_decide_eq_true (List.mem_filter.mp member).2
      simp only [Option.elim]
      omega

/-- Stores below a bound leave memory below that bound, as long as the program is. -/
theorem extent_stored_le {bound : Nat} (below : ∀ store ∈ stores, store.address < bound) :
    ((ofProgram program).storeAll stores).extent ≤ max program.size bound := by
  rw [extent_stored]
  cases highest : highestBeyond? program.size stores with
  | none => exact Nat.le_max_left _ _
  | some address =>
      obtain ⟨member, _⟩ := List.max?_eq_some_iff.mp highest
      obtain ⟨store, stored, rfl⟩ := List.mem_map.mp (List.mem_filter.mp member).1
      exact Nat.le_trans (below store stored) (Nat.le_max_right _ _)

theorem length_toList (proper : memory.size ≤ memory.extent) :
    memory.toList.length = memory.extent := by
  have dense : memory.dense.toList.length = memory.size := Array.length_toList
  rw [toList, List.length_append, List.length_map, List.length_range', dense]
  omega

theorem dense_isPrefix_toList (memory : Memory) : memory.dense.toList <+: memory.toList :=
  List.prefix_append _ _

theorem get_dense (inside : address < memory.dense.size) :
    memory.get address = memory.dense[address] := by
  rw [get, Array.getElem?_eq_getElem inside]

theorem toList_getElem? (inside : address < memory.extent) :
    memory.toList[address]? = some (memory.get address) := by
  rw [toList, List.getElem?_append, Array.length_toList]
  split <;> rename_i dense
  · rw [Array.getElem?_toList, Array.getElem?_eq_getElem dense, get_dense dense]
  · have place : memory.size + (address - memory.dense.size) = address := by
      rw [size]
      omega
    have within : address - memory.dense.size < memory.extent - memory.size := by
      rw [size]
      omega
    rw [List.getElem?_map, List.getElem?_range' within, Nat.one_mul, place]
    rfl

end Memory

end Intcode
