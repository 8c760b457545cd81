import Intcode.Proofs.Assembly.Simulation

namespace Intcode.Assembly

namespace Interpreter

open Layout

variable {items : List Item} {program : Program} {session next : Session}
  {interpreter after : Interpreter} {outcome : Outcome} {report : Report} {input : Option Source}

/-- A resume that completes or repeats something is one step of the interpreter. -/
theorem exchange_agrees (fits : size items < 2 ^ 63) (shows : Shows items session interpreter)
    (stopped : interpreter.status ≠ .running) :
    ∃ outcome next after, (∀ fuel, session.resume fuel = some (next, outcome)) ∧
      step items interpreter = (after, some (outcome.mapError Fault.kind)) ∧
      Shows items next after := by
  have phase := shows.phase
  have pointer := shows.pointer
  cases status : interpreter.status with
  | running => contradiction
  | reading name =>
      simp only [status] at phase pointer
      obtain ⟨instruction, address, phase, found, has⟩ := phase
      have small := Nat.lt_trans (varAt?_lt found) fits
      have goes : Machine.destinationOf instruction session.machine.base = .ok address := by
        simp only [Machine.destinationOf, has, Destination.resolve, resolveAddress_position small]
      have interpreted : step items interpreter = interpreter.receive name := by
        simp only [step, status]
      cases connected : interpreter.input with
      | none =>
          have read : session.ends.read = (.disconnected, session.ends) :=
            Endpoints.read_disconnected (by rw [shows.feed, connected, Option.elim_none])
          simp only [receive, connected] at interpreted
          refine ⟨_, _, _, fun fuel => Session.resume_reading phase read rfl, interpreted, ?_⟩
          exact ⟨shows.image, shows.feed, shows.sink, shows.output, trivial, _, rfl⟩
      | some source =>
          have read : session.ends.read =
              (.ofValue? source.next.1, { session.ends with feed := .source source.next.2 }) :=
            Endpoints.read_source (by rw [shows.feed, connected, Option.elim_some])
          cases supply : source.next.1 with
          | none =>
              rw [supply] at read
              simp only [receive, connected, supply] at interpreted
              refine ⟨_, _, _, fun fuel => Session.resume_reading phase read rfl, interpreted, ?_⟩
              exact ⟨shows.image, rfl, shows.sink, shows.output, trivial, _, rfl⟩
          | some word =>
              rw [supply] at read
              simp only [receive, connected, supply] at interpreted
              have received : session.machine.receive instruction (.value word) =
                  ({ session.machine with
                      memory := session.machine.memory.set address word, phase := .running },
                    .ok .afterInput) := by
                simp only [Machine.receive, goes]
              refine ⟨_, _, _, fun fuel => Session.resume_reading phase read received,
                interpreted, ?_⟩
              exact ⟨shows.image.set found word, rfl, shows.sink, shows.output, pointer, rfl⟩
  | writing word =>
      simp only [status] at phase pointer
      refine ⟨_, _, _, fun fuel => Session.resume_writing phase, by simp only [step, status]; rfl,
        ?_⟩
      refine ⟨shows.image, ?_, ?_, ?_, pointer, rfl⟩
      · rw [Endpoints.write_collected shows.sink]
        exact shows.feed
      · rw [Endpoints.write_collected shows.sink]
        exact shows.sink
      · rw [Endpoints.write_collected shows.sink, Array.toList_push, shows.output]
  | halted =>
      simp only [status] at phase
      exact ⟨_, _, _, fun fuel => Session.resume_halted phase, by simp only [step, status]; rfl,
        shows⟩
  | failed kind =>
      simp only [status] at phase
      obtain ⟨address, phase⟩ := phase
      exact ⟨_, _, _, fun fuel => Session.resume_faulted phase, by simp only [step, status]; rfl,
        shows⟩

theorem Shows.running (shows : Shows items session interpreter)
    (running : interpreter.status = .running) : session.machine.phase = .running := by
  have phase := shows.phase
  rw [running] at phase
  exact phase

section Runs

variable (assembled : Assembled items program) (structured : Structured items)

include assembled structured

theorem inStep (session : Session) :
    InStep Machine.step (step items) fun machine interpreter =>
      Shows items { session with machine } interpreter ∧ interpreter.status = .running := by
  rintro machine interpreter ⟨shows, running⟩
  cases step_agrees assembled structured shows running with
  | silent stepped interpreted running shows =>
      exact .inl ⟨_, _, stepped, interpreted, shows, running⟩
  | reported stepped interpreted =>
      exact .inr ⟨by simp only [stepped, Option.isSome_some],
        by simp only [interpreted, Option.isSome_some]⟩

/-- Over any number of instructions the interpreter ends up where the machine does. -/
theorem settles_agrees {machine : Machine} (shows : Shows items session interpreter)
    (running : interpreter.status = .running)
    (settled : Settles Machine.step session.machine outcome machine) :
    ∃ after, Settles (step items) interpreter (outcome.mapError Fault.kind) after ∧
      Shows items { session with machine } after := by
  obtain ⟨last, interpreterLast, ⟨shows, running⟩, reported, onward⟩ :=
    (inStep assembled structured session).last_step ⟨shows, running⟩ settled
  cases step_agrees assembled structured shows running with
  | silent stepped =>
      rw [reported] at stepped
      cases stepped
  | reported stepped interpreted shows =>
      rw [reported] at stepped
      cases stepped
      exact ⟨_, onward _ _ (.report interpreted), shows⟩

theorem resume_agrees (shows : Shows items session interpreter)
    (resumed : session.Resumes outcome next) :
    ∃ after, Settles (step items) interpreter (outcome.mapError Fault.kind) after ∧
      Shows items next after := by
  by_cases running : interpreter.status = .running
  · rw [Session.resumes_iff_settles (shows.running running)] at resumed
    obtain ⟨machine, settled, rfl⟩ := resumed
    exact settles_agrees assembled structured shows running settled
  · obtain ⟨fuel, resumed⟩ := resumed
    obtain ⟨_, _, after, resumes, interpreted, shows⟩ :=
      exchange_agrees assembled.fits shows running
    rw [resumes fuel] at resumed
    cases resumed
    exact ⟨after, .report interpreted, shows⟩

/-- Where the interpreter comes to a report the machine comes to an outcome. -/
theorem resumes_of_settles (shows : Shows items session interpreter)
    (settled : Settles (step items) interpreter report after) :
    ∃ outcome next, session.Resumes outcome next := by
  by_cases running : interpreter.status = .running
  · simp only [Session.resumes_iff_settles (shows.running running)]
    obtain ⟨interpreterLast, last, ⟨shows, running⟩, reported, onward⟩ :=
      (inStep assembled structured session).symm.last_step ⟨shows, running⟩ settled
    cases step_agrees assembled structured shows running with
    | silent _ interpreted =>
        rw [reported] at interpreted
        cases interpreted
    | reported stepped => exact ⟨_, _, _, onward _ _ (.report stepped), rfl⟩
  · obtain ⟨outcome, next, _, resumes, _⟩ := exchange_agrees assembled.fits shows running
    exact ⟨outcome, next, 0, resumes 0⟩

end Runs

theorem place_begins (undeclared : items.any Item.isVar = false) :
    place items (begins items) = 0 := by
  have before : ∀ item ∈ items.take (begins items), item.isInstruction = false := by
    intro item member
    obtain ⟨index, inside, rfl⟩ := List.mem_iff_getElem.mp member
    rw [List.length_take] at inside
    rw [List.getElem_take]
    cases first : items.findIdx? Item.isInstruction with
    | none => exact List.findIdx?_eq_none_iff.mp first _ (List.getElem_mem (by omega))
    | some found =>
        obtain ⟨_, _, earlier⟩ := List.findIdx?_eq_some_iff_getElem.mp first
        simp only [begins, first, Option.getD_some] at inside
        exact Bool.eq_false_iff.mpr (earlier index (by omega))
  unfold place
  apply List.sum_eq_zero_iff_forall_eq_nat.mpr
  intro width member
  obtain ⟨item, taken, rfl⟩ := List.mem_map.mp member
  have noVar := List.any_eq_false.mp undeclared item (List.mem_of_mem_take taken)
  have noInstruction := before item taken
  cases item with
  | label name => rfl
  | var name initial => simp [Item.isVar] at noVar
  | instruction opcode slots => cases noInstruction

theorem header_get (assembled : Assembled items program) (declared : items.any Item.isVar = true) :
    (Memory.ofProgram program).get 0 = InstructionWord.encode .jumpTrue [true, true] ∧
      (Memory.ofProgram program).get 1 = 1 ∧
      (Memory.ofProgram program).get 2 = Int64.ofNat (addressOf items (begins items)) := by
  simp only [Memory.get_ofProgram, assembled.words, words, header, headerSize, declared, if_true]
  exact ⟨rfl, rfl, rfl⟩

/-- The header takes control to where it begins. -/
theorem header_step (assembled : Assembled items program)
    (declared : items.any Item.isVar = true) :
    (Machine.ofProgram program).step =
      ({ Machine.ofProgram program with pointer := addressOf items (begins items) }, none) := by
  obtain ⟨first, second, third⟩ := header_get assembled declared
  have image := Image.ofProgram assembled
  have within : 3 ≤ (Memory.ofProgram program).size := by
    rw [image.size, size, addressOf, headerSize, if_pos declared]
    omega
  have known : Opcode.ofCode? (InstructionWord.code ((Memory.ofProgram program).get 0)) =
      some .jumpTrue := by
    rw [first, InstructionWord.code_encode (by decide), Opcode.ofCode?_code]
  have read : Instruction.readOperands (Memory.ofProgram program) 0
      ((Memory.ofProgram program).get 0) Opcode.jumpTrue.params 0 (0 + 1) =
        (3, .ok { values := [1, Int64.ofNat (addressOf items (begins items))] }) := by
    have proper : List.Forall₂ Argument.Fits Opcode.jumpTrue.params
        [.number 1, .number (Int64.ofNat (addressOf items (begins items)))] :=
      .cons trivial (.cons trivial .nil)
    refine readOperands_eq image assembled.fits proper (by simp [Resolves]) ?_ ?_ within
    · intro offset argument stands
      rw [first, Nat.zero_add, InstructionWord.mode_encode (by decide)]
      rcases offset with _ | _ | offset <;> cases stands <;> rfl
    · intro offset argument stands
      rcases offset with _ | _ | offset <;> cases stands
      · exact second
      · exact third
  have decoded := Instruction.decode_ok (by omega) known read
  have small := Nat.lt_of_le_of_lt (addressOf_le_size (begins items)) assembled.fits
  have target : Word.address? (Int64.ofNat (addressOf items (begins items))) =
      some (addressOf items (begins items)) := by
    rw [Word.address?_eq, Int64.toInt_ofNat_of_lt small, if_neg (by omega), Int.toNat_natCast]
  have stepped : (Machine.ofProgram program).step = _ := Machine.step_ok decoded
  rw [stepped]
  simp [Machine.execute, Opcode.effect?, target]

/-- A session at the start answers as one whose control is already past the header. -/
theorem start_shows (assembled : Assembled items program) (input : Option Source) :
    ∃ session : Session, Shows items session (start items input) ∧
      ∀ outcome next, (Session.wired program input).Resumes outcome next ↔
        session.Resumes outcome next := by
  have image := Image.ofProgram assembled
  cases declared : items.any Item.isVar with
  | true =>
      refine ⟨{ Session.wired program input with
        machine := { Machine.ofProgram program with pointer := addressOf items (begins items) } },
        ?_, ?_⟩
      · exact ⟨image, rfl, rfl, rfl, ⟨rfl, clear_begins items⟩, rfl⟩
      · intro outcome next
        have running : (Session.wired program input).machine.phase = .running := rfl
        rw [Session.resumes_iff_settles running, Session.resumes_iff_settles rfl]
        have skipped (machine : Machine) :
            Settles Machine.step (Machine.ofProgram program) outcome machine ↔
              Settles Machine.step _ outcome machine :=
          Settles.silent_iff (header_step assembled declared)
        exact exists_congr fun machine => and_congr_left' (skipped machine)
  | false =>
      refine ⟨Session.wired program input, ?_, fun _ _ => Iff.rfl⟩
      refine ⟨image, rfl, rfl, rfl, ⟨?_, clear_begins items⟩, rfl⟩
      have first : addressOf items (begins items) = 0 := by
        simp [addressOf, headerSize, declared, place_begins]
      exact first.symm

/-- What can be observed of a session: its variables, its output and what input is left. -/
structure Agrees (items : List Item) (session : Session) (interpreter : Interpreter) : Prop where
  vars : ∀ name address, varAt? items name = some address →
    session.machine.memory.get address = interpreter.store name
  output : session.ends.outbox.toList = interpreter.output
  input : session.ends.feed = interpreter.input.elim .disconnected .source

theorem Shows.agrees (shows : Shows items session interpreter) :
    Agrees items session interpreter :=
  ⟨shows.image.vars, shows.output, shows.feed⟩

theorem agrees_start (assembled : Assembled items program) (input : Option Source) :
    Agrees items (Session.wired program input) (start items input) :=
  ⟨(Image.ofProgram assembled).vars, rfl, rfl⟩

/-- Answers alike: as a session that stands where the interpreter stands. -/
def Tracks (items : List Item) (session : Session) (interpreter : Interpreter) : Prop :=
  Agrees items session interpreter ∧
    ∃ shown : Session, Shows items shown interpreter ∧
      ∀ outcome next, session.Resumes outcome next ↔ shown.Resumes outcome next

theorem Shows.tracks (shows : Shows items session interpreter) : Tracks items session interpreter :=
  ⟨shows.agrees, session, shows, fun _ _ => Iff.rfl⟩

theorem interpreter_of_reaches (assembled : Assembled items program)
    (structured : Structured items) {outcomes : List Outcome}
    (reached : Reaches Session.Resumes (Session.wired program input) outcomes session) :
    ∃ interpreter,
      Reaches (Settles (step items)) (start items input)
        (outcomes.map (·.mapError Fault.kind)) interpreter ∧
      Tracks items session interpreter := by
  induction reached with
  | start => exact ⟨_, .start, agrees_start assembled input, start_shows assembled input⟩
  | move reached resumed ih =>
      obtain ⟨interpreter, interpreted, _, shown, shows, alike⟩ := ih
      obtain ⟨after, settled, shows⟩ :=
        resume_agrees assembled structured shows ((alike _ _).mp resumed)
      rw [List.map_append, List.map_singleton]
      exact ⟨after, interpreted.move settled, shows.tracks⟩

theorem session_of_reaches (assembled : Assembled items program) (structured : Structured items)
    {reports : List Report}
    (reached : Reaches (Settles (step items)) (start items input) reports interpreter) :
    ∃ outcomes session, Reaches Session.Resumes (Session.wired program input) outcomes session ∧
      outcomes.map (·.mapError Fault.kind) = reports ∧ Tracks items session interpreter := by
  induction reached with
  | start => exact ⟨[], _, .start, rfl, agrees_start assembled input, start_shows assembled input⟩
  | move reached settled ih =>
      obtain ⟨outcomes, session, sessionReached, rfl, _, shown, shows, alike⟩ := ih
      obtain ⟨outcome, next, resumed⟩ := resumes_of_settles assembled structured shows settled
      obtain ⟨after, settledHere, shows⟩ := resume_agrees assembled structured shows resumed
      obtain ⟨rfl, rfl⟩ := settled.unique settledHere
      refine ⟨outcomes ++ [outcome], next, sessionReached.move ((alike _ _).mpr resumed), ?_,
        shows.tracks⟩
      rw [List.map_append, List.map_singleton]

end Interpreter

open Interpreter

/-- Running an assembled text and interpreting the text directly is the same: every row of
resumes reports what the interpreter reports, up to the addresses in faults, and leaves every
variable, the output and the input as the interpreter does, and the other way round. -/
theorem assembling_preserves_meaning {source : String} {program : Program}
    {statements : List Statement} (accepted : assemble source = .ok program)
    (said : read source = .ok statements) (room : source.utf8ByteSize < 2 ^ 63)
    (structured : Structured (statements.map Statement.item)) (input : Option Source) :
    (∀ outcomes session,
      Reaches Session.Resumes (Session.wired program input) outcomes session →
        ∃ interpreter,
          Reaches (Settles (step (statements.map Statement.item)))
            (start (statements.map Statement.item) input) (outcomes.map (·.mapError Fault.kind))
            interpreter ∧
          Agrees (statements.map Statement.item) session interpreter) ∧
    (∀ reports interpreter,
      Reaches (Settles (step (statements.map Statement.item)))
        (start (statements.map Statement.item) input) reports interpreter →
        ∃ outcomes session,
          Reaches Session.Resumes (Session.wired program input) outcomes session ∧
          outcomes.map (·.mapError Fault.kind) = reports ∧
          Agrees (statements.map Statement.item) session interpreter) := by
  obtain ⟨rows, saidAgain, assembled⟩ := assembled_of_assemble accepted room
  rw [said] at saidAgain
  cases saidAgain
  constructor
  · intro outcomes session reached
    obtain ⟨interpreter, interpreted, agrees, _⟩ :=
      interpreter_of_reaches assembled structured reached
    exact ⟨interpreter, interpreted, agrees⟩
  · intro reports interpreter reached
    obtain ⟨outcomes, session, sessionReached, same, agrees, _⟩ :=
      session_of_reaches assembled structured reached
    exact ⟨outcomes, session, sessionReached, same, agrees⟩

/-- A text that counts down from two. -/
def countdown : List Item :=
  [.var "n" 2, .label "loop", .ofArguments .output [.var "n"],
    .ofArguments .add [.var "n", .number (-1), .var "n"],
    .ofArguments .jumpTrue [.var "n", .label "loop"], .ofArguments .halt []]

theorem countdown_structured : Structured countdown := by
  refine ⟨?_, ?_, ?_⟩
  · intro opcode slots member jump
    simp only [countdown, Item.ofArguments, List.mem_cons, List.not_mem_nil, reduceCtorEq,
      Item.instruction.injEq, false_or, or_false] at member
    rcases member with ⟨rfl, _⟩ | ⟨rfl, _⟩ | ⟨rfl, rfl⟩ | ⟨rfl, _⟩
    · simp at jump
    · simp at jump
    · exact ⟨"loop", rfl⟩
    · simp at jump
  · intro index name label
    rcases index with _ | _ | _ | _ | _ | _ | index <;> cases label
    exact ⟨2, by decide, fun between lower upper => by omega, .inr ⟨_, _, rfl⟩⟩
  · intro index name initial var
    rcases index with _ | _ | _ | _ | _ | _ | index <;> cases var
    exact .inl fun before _ _ earlier => by omega

theorem countdown_is_interpreted :
    ∃ interpreter, Reaches (Settles (step countdown)) (start countdown none)
        [.ok .aboutToOutput, .ok .afterOutput, .ok .aboutToOutput, .ok .afterOutput, .ok .halted]
        interpreter ∧
      interpreter.output = [2, 1] ∧ interpreter.store "n" = 0 := by
  have accepted : assemble "var n = 2\nloop:\nout n\nadd n -1 -> n\ntjmp n @loop\nend\n" =
      .ok ⟨[1105, 1, 4, 2, 4, 3, 1001, 3, -1, 3, 1005, 3, 4, 99]⟩ :=
    eq_ok_of_toOption (by decide +kernel)
  have said : read "var n = 2\nloop:\nout n\nadd n -1 -> n\ntjmp n @loop\nend\n" =
      .ok (countdown.mapIdx fun index item => ⟨index + 1, item⟩) :=
    eq_ok_of_toOption (by decide +kernel)
  have started : Reaches Session.Resumes
      (Session.wired ⟨[1105, 1, 4, 2, 4, 3, 1001, 3, -1, 3, 1005, 3, 4, 99]⟩ none) [] _ := .start
  have reached := ((((started.move ⟨2, rfl⟩).move ⟨0, rfl⟩).move ⟨3, rfl⟩).move ⟨0, rfl⟩).move
    ⟨3, rfl⟩
  obtain ⟨interpreter, interpreted, agrees⟩ := (assembling_preserves_meaning accepted said
    (by decide +kernel) countdown_structured none).1 _ _ reached
  exact ⟨interpreter, interpreted, agrees.output.symm, (agrees.vars "n" 3 rfl).symm⟩

end Intcode.Assembly
