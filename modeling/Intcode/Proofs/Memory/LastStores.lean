import Intcode.Proofs.Memory.Stores
import Mathlib.Data.List.Induction

namespace Intcode

/-- The word that the last of these stores at an address puts there. -/
def lastWord? (stores : List Store) (address : Nat) : Option Word :=
  (stores.filter fun store => store.address = address).getLast?.map Store.word

variable {stores others : List Store} {store : Store} {address : Nat} {word : Word}

theorem lastWord?_snoc :
    lastWord? (stores ++ [store]) address =
      if store.address = address then some store.word else lastWord? stores address := by
  rw [lastWord?, List.filter_append]
  split <;> rename_i here
  · rw [List.filter_cons_of_pos (by simpa using here), List.filter_nil, List.getLast?_concat,
      Option.map_some]
  · rw [List.filter_cons_of_neg (by simpa using here), List.filter_nil, List.append_nil, lastWord?]

theorem lastWord?_eq_none_iff :
    lastWord? stores address = none ↔ address ∉ stores.map Store.address := by
  rw [lastWord?, Option.map_eq_none_iff, List.getLast?_eq_none_iff, List.filter_eq_nil_iff]
  simp

namespace Memory

variable {memory other : Memory} {program : Program}

theorem get_storeAll :
    (memory.storeAll stores).get address =
      (lastWord? stores address).getD (memory.get address) := by
  induction stores using List.reverseRecOn with
  | nil => rfl
  | append_singleton stores store ih =>
      rw [storeAll_append, storeAll_cons, storeAll_nil, get_set, lastWord?_snoc, ih]
      simp only [eq_comm (a := address)]
      split <;> rfl

theorem sparse_set_getElem? (memory : Memory) (address : Nat) (word : Word) (place : Nat) :
    (memory.set address word).sparse[place]? =
      if memory.size ≤ place ∧ address = place then some word else memory.sparse[place]? := by
  by_cases dense : address < memory.dense.size
  · have outside : ¬ (memory.size ≤ place ∧ address = place) := by
      rintro ⟨beyond, rfl⟩
      exact Nat.not_lt.mpr beyond dense
    simp only [set, dense, if_true, outside, if_false]
  · have beyond : memory.size ≤ address := Nat.not_lt.mp dense
    simp only [set, dense, if_false, Std.ExtTreeMap.getElem?_insert,
      Std.LawfulEqCmp.compare_eq_iff_eq]
    by_cases same : address = place
    · rw [if_pos same, if_pos ⟨same ▸ beyond, same⟩]
    · rw [if_neg same, if_neg fun both => same both.2]

/-- A cell beyond the program is kept with the last word that was put there, if there is one. -/
theorem sparse_stored_getElem? :
    ((ofProgram program).storeAll stores).sparse[address]? =
      if program.size ≤ address then lastWord? stores address else none := by
  induction stores using List.reverseRecOn with
  | nil =>
      have untouched : ((ofProgram program).storeAll []).sparse[address]? = none :=
        Std.ExtTreeMap.getElem?_empty
      rw [untouched]
      exact (ite_self none).symm
  | append_singleton stores store ih =>
      rw [storeAll_append, storeAll_cons, storeAll_nil, sparse_set_getElem?, size_storeAll,
        size_ofProgram, lastWord?_snoc, ih]
      by_cases beyond : program.size ≤ address
      · simp only [beyond, true_and, if_true]
      · simp only [beyond, false_and, if_false]

/-- Two memories with as many dense cells are equal just if these read the same and the same is
kept beyond them. -/
theorem eq_iff_of_size_eq (same : memory.size = other.size) :
    memory = other ↔
      (∀ address < memory.size, memory.get address = other.get address) ∧
        ∀ address : Nat, memory.sparse[address]? = other.sparse[address]? := by
  constructor
  · rintro rfl
    exact ⟨fun _ _ => rfl, fun _ => rfl⟩
  · rintro ⟨reads, kept⟩
    have dense : memory.dense = other.dense := by
      refine Array.ext same fun address inside within => ?_
      rw [← get_dense inside, ← get_dense within]
      exact reads address inside
    have sparse : memory.sparse = other.sparse :=
      Std.ExtTreeMap.ext_getElem? fun address => kept address
    cases memory
    cases other
    cases dense
    cases sparse
    rfl

theorem get_stored :
    ((ofProgram program).storeAll stores).get address =
      (lastWord? stores address).getD (program.words[address]?.getD 0) := by
  rw [get_storeAll, get_ofProgram]

theorem stored_eq_iff :
    (ofProgram program).storeAll stores = (ofProgram program).storeAll others ↔
      (∀ address < program.size, ((ofProgram program).storeAll stores).get address =
        ((ofProgram program).storeAll others).get address) ∧
        ∀ address, program.size ≤ address →
          lastWord? stores address = lastWord? others address := by
  rw [eq_iff_of_size_eq (by rw [size_storeAll, size_storeAll]), size_storeAll, size_ofProgram]
  simp only [sparse_stored_getElem?]
  refine and_congr_right fun _ => forall_congr' fun address => ?_
  split <;> rename_i beyond
  · exact ⟨fun same _ => same, fun same => same beyond⟩
  · exact iff_of_true rfl fun inside => absurd inside beyond

/-- A zero in a cell beyond the program that was never written changes nothing that is read. -/
theorem get_set_zero (beyond : program.size ≤ address) (fresh : lastWord? stores address = none)
    (place : Nat) :
    (((ofProgram program).storeAll stores).set address 0).get place =
      ((ofProgram program).storeAll stores).get place := by
  rw [get_set]
  split <;> rename_i here
  · have absent : program.words[address]? = none := List.getElem?_eq_none beyond
    rw [here, get_stored, fresh, absent]
    rfl
  · rfl

theorem set_ne_of_fresh (beyond : program.size ≤ address)
    (fresh : lastWord? stores address = none) :
    ((ofProgram program).storeAll stores).set address word ≠
      (ofProgram program).storeAll stores := by
  intro same
  have kept := congrArg (fun memory => memory.sparse[address]?) same
  simp only [sparse_set_getElem?, size_storeAll, size_ofProgram, beyond, true_and, if_true,
    sparse_stored_getElem?, fresh] at kept
  cases kept

/-- Memory reads at each address what was last stored there, or else what the program has there, or
else zero. After other stores it is the same memory just if the program's cells read the same and
the same cells beyond were written, with the same last words. So stores to different addresses may
change places; and a zero in a fresh cell shows, though all reads as before. -/
theorem memory_is_told_by_last_stores (program : Program) (stores others : List Store) :
    let memory := (ofProgram program).storeAll stores
    let another := (ofProgram program).storeAll others
    (∀ address, memory.get address =
      (lastWord? stores address).getD (program.words[address]?.getD 0)) ∧
    (memory = another ↔
      (∀ address < program.size, memory.get address = another.get address) ∧
        ∀ address, program.size ≤ address → lastWord? stores address = lastWord? others address) ∧
    ((∀ address, stores.filter (fun store => store.address = address) =
      others.filter fun store => store.address = address) → memory = another) ∧
    ∀ address, program.size ≤ address → address ∉ stores.map Store.address →
      (∀ place, (memory.set address 0).get place = memory.get place) ∧
        memory.set address 0 ≠ memory := by
  refine ⟨fun address => get_stored, stored_eq_iff, fun rows => ?_, fun address beyond fresh => ?_⟩
  · have last (address : Nat) : lastWord? stores address = lastWord? others address := by
      rw [lastWord?, rows, lastWord?]
    refine stored_eq_iff.mpr ⟨fun address _ => ?_, fun address _ => last address⟩
    rw [get_stored, get_stored, last]
  · have unwritten : lastWord? stores address = none := lastWord?_eq_none_iff.mpr fresh
    exact ⟨get_set_zero beyond unwritten, set_ne_of_fresh beyond unwritten⟩

/-- Two stores to one cell beyond a program of one word, and one to the program between them or in
front of them. -/
theorem zero_in_cell_9_shows :
    let memory := (ofProgram ⟨[4]⟩).storeAll [⟨2, 7⟩, ⟨0, 1⟩, ⟨2, 5⟩]
    memory.get 2 = 5 ∧ memory = (ofProgram ⟨[4]⟩).storeAll [⟨0, 1⟩, ⟨2, 7⟩, ⟨2, 5⟩] ∧
      (memory.set 9 0).get 9 = memory.get 9 ∧ memory.set 9 0 ≠ memory := by
  obtain ⟨reads, _, order, fresh⟩ := memory_is_told_by_last_stores ⟨[4]⟩
    [⟨2, 7⟩, ⟨0, 1⟩, ⟨2, 5⟩] [⟨0, 1⟩, ⟨2, 7⟩, ⟨2, 5⟩]
  have rows : ∀ address,
      [⟨2, 7⟩, ⟨0, 1⟩, ⟨2, 5⟩].filter (fun store : Store => store.address = address) =
        [⟨0, 1⟩, ⟨2, 7⟩, ⟨2, 5⟩].filter fun store => store.address = address := by
    intro address
    by_cases beyond : 2 = address
    · subst beyond
      rfl
    · simp [List.filter, beyond]
  obtain ⟨same, differs⟩ := fresh 9 (by decide) (by decide)
  exact ⟨reads 2, order rows, same 9, differs⟩

end Memory

end Intcode
