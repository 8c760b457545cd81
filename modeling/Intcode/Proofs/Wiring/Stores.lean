import Intcode.Proofs.Machine.Stores
import Intcode.Proofs.Wiring

namespace Intcode

/-- What a resume stores on the way to a stop. -/
inductive Machine.Lays (machine : Machine) (stop : Stop) : List Store → Prop
  | advanced {stores : List Store} (phase : machine.phase = .running)
      (advances : machine.Advances stores stop.outcome stop.after) : Lays machine stop stores
  | received {instruction : Instruction} (phase : machine.phase = .reading instruction) :
      Lays machine stop (stop.reads.flatMap fun answer =>
        (machine.delivery? instruction (.ofValue? answer)).toList)
  | wrote {word : Word} (phase : machine.phase = .writing word) : Lays machine stop []
  | stopped (isOver : machine.isOver = true) : Lays machine stop []

/-- A stop, and what was stored on the way there. -/
structure Trail where
  stop : Stop
  stores : List Store

namespace Wiring

variable {World : Type} {wiring : Wiring World} {machine before after : Machine}
  {world left : World} {stop : Stop} {stops : List Stop} {trails : List Trail}
  {stores : List Store} {program : Program}

/-- A resume in some world, with what it stores. -/
def Trails (wiring : Wiring World) (before : Machine) (trail : Trail) (after : Machine) : Prop :=
  wiring.Visits before trail.stop after ∧ before.Lays trail.stop trail.stores

theorem Continues.exists_lays (continues : wiring.Continues machine world stop left) :
    ∃ stores, machine.Lays stop stores := by
  cases continues with
  | advanced phase advanced =>
      obtain ⟨stores, advances⟩ :=
        Machine.exists_advances (Machine.settles_iff_advance.mpr ⟨_, advanced⟩)
      exact ⟨stores, .advanced phase advances⟩
  | unfed phase | fed phase => exact ⟨_, .received phase⟩
  | dropped phase | wrote phase => exact ⟨_, .wrote phase⟩
  | halted phase | faulted phase => exact ⟨_, .stopped (by simp [Machine.isOver, phase])⟩

/-- A resume changes memory by what it stores, and by nothing else. -/
theorem Continues.memory (continues : wiring.Continues machine world stop left)
    (lays : machine.Lays stop stores) : stop.after.memory = machine.memory.storeAll stores := by
  cases lays with
  | advanced _ advances => exact advances.memory
  | received phase =>
      cases continues with
      | unfed again missing received =>
          cases phase.symm.trans again
          have memory := Machine.receive_memory machine ‹_› .disconnected
          rwa [received] at memory
      | @fed _ take _ _ again connected received =>
          cases phase.symm.trans again
          have memory := Machine.receive_memory machine ‹_› (.ofValue? (take world).1)
          rw [received] at memory
          simpa [Stop.reads] using memory
      | advanced again | dropped again | wrote again | halted again | faulted again =>
          cases phase.symm.trans again
  | wrote phase =>
      cases continues with
      | dropped | wrote => rfl
      | advanced again | unfed again | fed again | halted again | faulted again =>
          cases phase.symm.trans again
  | stopped isOver =>
      cases continues with
      | halted | faulted => rfl
      | advanced phase | unfed phase | fed phase | dropped phase | wrote phase =>
          simp [Machine.isOver, phase] at isOver

end Wiring

theorem Machine.Lays.lt {machine : Machine} {stop : Stop} {stores : List Store}
    (lays : machine.Lays stop stores) : ∀ store ∈ stores, store.address < addressLimit := by
  cases lays with
  | advanced _ advances => exact advances.lt
  | received =>
      intro store stored
      obtain ⟨answer, _, delivered⟩ := List.mem_flatMap.mp stored
      exact Machine.delivery?_lt (Option.mem_toList.mp delivered)
  | wrote | stopped => simp

namespace Wiring

variable {World : Type} {wiring : Wiring World} {machine : Machine} {stops : List Stop}
  {trails : List Trail} {program : Program}

/-- Every run leaves a trail. -/
theorem trails_of_reaches (reached : Reaches wiring.Visits (.ofProgram program) stops machine) :
    ∃ trails, Reaches wiring.Trails (.ofProgram program) trails machine ∧
      trails.map Trail.stop = stops := by
  induction reached with
  | start => exact ⟨[], .start, rfl⟩
  | @move _ _ _ stop _ visited ih =>
      obtain ⟨trails, reached, rfl⟩ := ih
      obtain ⟨_, world, left, resumed⟩ := id visited
      obtain ⟨stores, lays⟩ := resumed.continues.exists_lays
      have moved : wiring.Trails _ ⟨stop, stores⟩ _ := ⟨visited, lays⟩
      exact ⟨_, reached.move moved, by simp⟩

/-- The memory a run has come to is that of the program after all stores of the run. -/
theorem memory_of_reaches (reached : Reaches wiring.Trails (.ofProgram program) trails machine) :
    machine.memory = (Memory.ofProgram program).storeAll (trails.flatMap Trail.stores) ∧
      ∀ store ∈ trails.flatMap Trail.stores, store.address < addressLimit := by
  induction reached with
  | start => exact ⟨rfl, by simp⟩
  | move _ moved ih =>
      obtain ⟨⟨rfl, world, left, resumed⟩, lays⟩ := moved
      obtain ⟨memory, below⟩ := ih
      simp only [List.flatMap_append, List.flatMap_cons, List.flatMap_nil, List.append_nil]
      refine ⟨?_, ?_⟩
      · rw [resumed.continues.memory lays, memory, Memory.storeAll_append]
      · intro store stored
        rcases List.mem_append.mp stored with earlier | last
        · exact below store earlier
        · exact lays.lt store last

/-- The dense cells stay as many as the program has words. A cell kept sparsely lies beyond them
and has an address that a word can be, so memory never reaches further than `2 ^ 63`, unless the
program itself does. It reaches one past the highest cell beyond the program that the run has
written, and a copy of it has just the cells up to there. -/
theorem memory_reaches_highest_store (wiring : Wiring World) (program : Program)
    (reached : Reaches wiring.Visits (.ofProgram program) stops machine) :
    machine.memory.size = program.size ∧
    (∀ address ∈ machine.memory.sparse, program.size ≤ address ∧ address ≤ 2 ^ 63 - 1) ∧
    program.size ≤ machine.memory.extent ∧
    machine.memory.extent ≤ max program.size (2 ^ 63) ∧
    (∃ trails, Reaches wiring.Trails (.ofProgram program) trails machine ∧
      trails.map Trail.stop = stops ∧
      machine.memory = (Memory.ofProgram program).storeAll (trails.flatMap Trail.stores) ∧
      machine.memory.extent =
        (Memory.highestBeyond? program.size (trails.flatMap Trail.stores)).elim program.size
          (· + 1)) ∧
    machine.memory.toList.length = machine.memory.extent ∧
    machine.memory.dense.toList <+: machine.memory.toList ∧
    ∀ address < machine.memory.extent,
      machine.memory.toList[address]? = some (machine.memory.get address) := by
  obtain ⟨trails, reached, stopped⟩ := trails_of_reaches reached
  obtain ⟨memory, below⟩ := memory_of_reaches reached
  have size : machine.memory.size = program.size := by
    rw [memory, Memory.size_storeAll, Memory.size_ofProgram]
  have beyond : program.size ≤ machine.memory.extent := by
    rw [memory]
    exact Memory.size_le_extent_stored
  refine ⟨size, ?_, beyond, ?_, ⟨trails, reached, stopped, memory, ?_⟩,
    Memory.length_toList (by rwa [size]), Memory.dense_isPrefix_toList _,
    fun address inside => Memory.toList_getElem? inside⟩
  · intro address kept
    rw [memory, Memory.mem_sparse_stored] at kept
    obtain ⟨outside, written⟩ := kept
    obtain ⟨store, stored, rfl⟩ := List.mem_map.mp written
    have small := below store stored
    rw [addressLimit] at small
    exact ⟨outside, by omega⟩
  · rw [memory]
    exact Memory.extent_stored_le below
  · rw [memory]
    exact Memory.extent_stored

/-- A program of three words puts the word it reads into cell 5. -/
theorem word_in_cell_5_is_reached :
    ∃ stops machine,
      Reaches collecting.Visits (.ofProgram ⟨[3, 5, 99]⟩) stops machine ∧
      stops.map Stop.outcome = [.ok .aboutToInput, .ok .afterInput, .ok .halted] ∧
      machine.memory.size = 3 ∧ machine.memory.extent = 6 ∧
      machine.memory.toList.length = 6 ∧ machine.memory.toList[5]? = some 7 := by
  have started : Reaches collecting.Visits (.ofProgram ⟨[3, 5, 99]⟩) [] _ := .start
  have reached := ((started.move (visits_of_resume 1 ([7], []) rfl)).move
    (visits_of_resume 0 ([7], []) rfl)).move (visits_of_resume 1 ([], []) rfl)
  obtain ⟨size, _, _, _, _, length, _, cells⟩ := memory_reaches_highest_store _ _ reached
  have extent : ((Memory.ofProgram ⟨[3, 5, 99]⟩).storeAll [⟨5, 7⟩]).extent = 6 :=
    Memory.extent_stored
  have inside : 5 < _ := Nat.lt_of_lt_of_eq (by decide) extent.symm
  exact ⟨_, _, reached, rfl, size, extent, length.trans extent, cells 5 inside⟩

end Wiring

end Intcode
