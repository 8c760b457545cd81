import Intcode.Proofs.Console.Diagnostics
import Intcode.Proofs.Console.Feeding
import Intcode.Proofs.Machine.Passage
import Intcode.Proofs.Wiring.Stores

namespace Intcode.Console

/-- What a machine meets that a console runs: lines of input, given values, and what it has
written. -/
structure Bench where
  lines : List Content
  words : List Word
  written : List Word := []

namespace Bench

def takeLine (bench : Bench) : Option Word × Bench :=
  let (word, lines) := Content.nextValue bench.lines
  (word, { bench with lines })

def takeWord (bench : Bench) : Option Word × Bench :=
  (bench.words.head?, { bench with words := bench.words.tail })

def write (word : Word) (bench : Bench) : Bench :=
  { bench with written := bench.written ++ [word] }

end Bench

namespace Options

/-- Values come from the lines or are given, or no input is connected. Output is kept. -/
def wiring (options : Options) : Wiring Bench where
  source :=
    if options.stdin then some Bench.takeLine
    else if options.input.isEmpty then none
    else some Bench.takeWord
  sink := some Bench.write

/-- The program is in this text, as assembly or in words. -/
def Loads (options : Options) (source : String) (program : Program) : Prop :=
  if options.assembly then assemble source = .ok program else Program.parse source = .ok program

end Options

namespace Desk

variable {desk before : Desk} {bench : Bench} {words : List Word} {fuel : Nat}
  {filter : LogFilter} {filterText? : Option String} {options : Options} {source : String}
  {program : Program} {arguments : List String}

/-- What the desk has shown since it was as before is what the machine has written, and it has the
same input to come. -/
structure Beside (fuel : Nat) (before : Desk) (words : List Word) (desk : Desk) (bench : Bench) :
    Prop where
  input : desk.input = bench.lines
  given : words = bench.words
  output : desk.output.toList = before.output.toList ++ bench.written.map Word.render
  complaints : desk.complaints = before.complaints
  enough : bench.lines.length ≤ fuel

theorem Beside.told (beside : Beside fuel before words desk bench) (log : Array String) :
    Beside fuel before words { desk with log } bench :=
  ⟨beside.input, beside.given, beside.output, beside.complaints, beside.enough⟩

/-- Runs at a console and runs by themselves with the same answers, the one shown as far as the
other has written. -/
def shownAs (fuel : Nat) (before : Desk) :
    Correspondence (StateT (List Word) (StateM Desk)) (StateM Bench) where
  Holds left right := ∀ words desk bench, Beside fuel before words desk bench →
    let shown := (left.run words).run desk
    let ended := right.run bench
    shown.1.1 = ended.1 ∧ Beside fuel before shown.1.2 shown.2 ended.2
  pure _ _ _ _ beside := ⟨rfl, beside⟩
  bind {_ _ left right _ after} first later words desk bench beside := by
    obtain ⟨same, beside⟩ := first words desk bench beside
    have rest := later ((left.run words).run desk).1.1 ((left.run words).run desk).1.2 _ _ beside
    rw [congrArg after same] at rest
    exact rest

theorem logging_shown (event : Event) :
    (shownAs fuel before).Holds (liftM (logging host filter event)) (pure ()) := by
  intro words desk bench beside
  obtain ⟨log, told⟩ := logging_eq filter event desk
  rw [run_liftM, told]
  exact ⟨rfl, beside.told log⟩

theorem ports_shown :
    (ports host (logging host filter) fuel options).Correspond (shownAs fuel before)
      options.wiring.ports where
  read words desk bench beside := by
    obtain ⟨input, given, output, complaints, enough⟩ := beside
    unfold ports Wiring.ports Options.wiring
    dsimp only
    cases options.stdin with
    | true =>
        rw [← input] at enough
        obtain ⟨log, read⟩ := readValue_run desk enough
        simp only [if_true]
        rw [run_liftM, read, input]
        refine ⟨rfl, rfl, given, output, complaints, ?_⟩
        exact Nat.le_trans (Content.nextValue_length_le _) (input ▸ enough)
    | false =>
        simp only [Bool.false_eq_true, if_false]
        cases options.input.isEmpty with
        | true => exact ⟨rfl, input, given, output, complaints, enough⟩
        | false =>
            subst given
            exact ⟨rfl, input, rfl, output, complaints, enough⟩
  write word words desk bench beside := by
    refine ⟨rfl, beside.input, beside.given, ?_, beside.complaints, beside.enough⟩
    have printed : ((desk.output.push word.render)).toList =
        before.output.toList ++ (bench.written ++ [word]).map Word.render := by
      rw [Array.toList_push, beside.output, List.map_append, List.append_assoc]
      rfl
    exact printed

theorem runMachine_beside (filter : LogFilter) (options : Options) (program : Program)
    (desk : Desk) (enough : desk.input.length ≤ fuel) :
    let start : Bench := { lines := desk.input, words := options.input }
    let ended := ((Machine.ofProgram program).run options.wiring.ports (fun _ => pure ()) fuel).run
      start
    ∃ words shown, Beside fuel desk words shown ended.2 ∧
      (runMachine host (logging host filter) fuel options program).run desk =
        (finishMachine host options ended.1).run shown := by
  intro start ended
  obtain ⟨log, ran⟩ := runMachine_eq filter fuel options program desk
  have beside : Beside fuel desk options.input { desk with log } start :=
    ⟨rfl, rfl, (List.append_nil _).symm, rfl, enough⟩
  obtain ⟨same, beside⟩ := Machine.run_corresponds ports_shown logging_shown fuel
    (.ofProgram program) _ _ _ beside
  rw [ran, same]
  exact ⟨_, _, beside, rfl⟩

theorem finishMachine_ok (desk : Desk) (memory : Memory) :
    (finishMachine host options (some (.ok memory))).run desk =
      (some .success, if options.dumpMemory then
        { desk with output := desk.output.push (Program.render ⟨memory.toList⟩) } else desk) := by
  simp only [finishMachine]
  split <;> rfl

theorem finishMachine_error (desk : Desk) (fault : Fault) :
    (finishMachine host options (some (.error fault))).run desk =
      (some .failure, desk.complaining ["runtime-error: " ++ fault.message]) := by
  have text : s!"runtime-error: {fault.message}" = "runtime-error: " ++ fault.message := by
    simp [toString]
  rw [finishMachine, failing_run, text]

section Loading

theorem writeFile_congr {left right : Desk} (files : left.files = right.files)
    (path text : String) : (left.writeFile path text).1 = (right.writeFile path text).1 := by
  simp only [writeFile, locate_congr files]
  split
  · cases right.locate path (stepsAround path) <;> rfl
  · rcases right.locate path (steps path) with _ | _ | _ | _ <;> rfl

theorem store_alike (desk : Desk) (route : Route) (text : String) :
    (desk.store route text).Alike desk := by
  rw [store]
  split <;> exact ⟨rfl, rfl, rfl⟩

theorem writeFile_alike (desk : Desk) (path text : String) :
    (desk.writeFile path text).2.Alike desk := by
  rw [writeFile]
  split
  · split <;> exact ⟨rfl, rfl, rfl⟩
  · split
    · exact ⟨rfl, rfl, rfl⟩
    · exact ⟨rfl, rfl, rfl⟩
    · exact store_alike _ _ _
    · exact store_alike _ _ _

/-- The output file, if one is to be written, can be written. -/
def Writable (desk : Desk) (options : Options) (program : Program) : Prop :=
  ∀ path, options.assembly = true → options.output = some path →
    (desk.writeFile path program.render).1 = .ok ()

theorem save_run (writable : desk.Writable options program) (log : Array String) :
    ∃ saved, saved.Alike desk ∧
      (save host options program).run { desk with log } = (.ok (), saved) := by
  cases assembly : options.assembly with
  | false =>
      refine ⟨{ desk with log }, ⟨rfl, rfl, rfl⟩, ?_⟩
      simp only [save, assembly]
      rfl
  | true =>
      cases output : options.output with
      | none =>
          refine ⟨{ desk with log }, ⟨rfl, rfl, rfl⟩, ?_⟩
          rw [save_of_unsaved output]
          rfl
      | some path =>
          let logged : Desk := { desk with log }
          have files : logged.files = desk.files := rfl
          have same := writeFile_congr files path program.render
          refine ⟨(logged.writeFile path program.render).2,
            (writeFile_alike logged path _).trans ⟨rfl, rfl, rfl⟩, ?_⟩
          simp only [save, assembly, output]
          exact Prod.ext (same.trans (writable path assembly output)) rfl

theorem execute_runs (filterText? : Option String) (fuel : Nat)
    (given : desk.textAt options.file = .ok source)
    (loads : options.Loads source program) (writable : desk.Writable options program)
    (alone : options.phases = []) (executed : options.noExec = false) :
    ∃ ready : Desk, ready.Alike desk ∧
      (execute host filterText? fuel options).run desk =
        (runMachine host (reporting filterText? options) fuel options program).run ready := by
  have proceeds (log : Array String) : ∃ ready : Desk, ready.Alike desk ∧
      (proceed filterText? fuel options program).run { desk with log } =
        (runMachine host (reporting filterText? options) fuel options program).run ready := by
    obtain ⟨log, told⟩ := logging_eq (LogFilter.choose filterText? options.verbosity)
      (.programLoaded program.size) { desk with log }
    obtain ⟨ready, alike, saved⟩ := save_run writable log
    refine ⟨ready, alike, ?_⟩
    rw [proceed, run_bind, reporting, told, run_bind, saved]
    simp only [carryOut, executed, alone, Bool.false_eq_true, if_false, List.isEmpty_nil, if_true]
  unfold Options.Loads at loads
  split at loads <;> rename_i assembly
  · cases assembled : Assembly.Listing.ofSource source with
    | error error => simp [assemble, assembled, Except.map] at loads
    | ok listing =>
        obtain rfl : listing.program = program := by
          simpa [assemble, assembled, Except.map] using loads
        obtain ⟨log, told⟩ := logging_eq (LogFilter.choose filterText? options.verbosity)
          listing.event desk
        rw [execute_assembly given assembly assembled, reporting, told]
        exact proceeds log
  · rw [execute_words given (Bool.eq_false_iff.mpr assembly) loads]
    exact proceeds desk.log

end Loading

/-- What a desk shows up to where the machine is over. -/
theorem run_eq (filterText? : Option String) (read : Options.ofArguments arguments = .ok options)
    (given : desk.textAt options.file = .ok source) (loads : options.Loads source program)
    (writable : desk.Writable options program) (alone : options.phases = [])
    (executed : options.noExec = false) (enough : desk.input.length ≤ fuel) :
    let start : Bench := { lines := desk.input, words := options.input }
    let ended := ((Machine.ofProgram program).run options.wiring.ports (fun _ => pure ()) fuel).run
      start
    ∃ shown : Desk,
      desk.run filterText? fuel arguments = (finishMachine host options ended.1).run shown ∧
      shown.output.toList =
        desk.output.toList ++ ended.2.written.map (fun word => toString word.toInt) ∧
      shown.complaints = desk.complaints := by
  intro start ended
  obtain ⟨ready, alike, runs⟩ :=
    execute_runs filterText? fuel given loads writable alone executed
  have covered : ready.input.length ≤ fuel := by rwa [alike.input]
  obtain ⟨_, shown, beside, ran⟩ :=
    runMachine_beside (LogFilter.choose filterText? options.verbosity) options program ready covered
  rw [alike.input] at beside ran
  refine ⟨shown, ?_, ?_, beside.complaints.trans alike.complaints⟩
  · rw [run_of_options read, runs]
    exact ran
  · rw [beside.output, alike.output, Word.render_eq]

theorem newline_notMem_render (program : Program) : '\n' ∉ program.render.toList := by
  intro member
  cases program.isBlank_of_mem_render _ member

/-- A copy of the memory to which a machine has come has just the cells up to its extent. -/
theorem toList_of_run {memory : Memory} {start left : Bench}
    (ran : ((Machine.ofProgram program).run options.wiring.ports (fun _ => pure ()) fuel).run
      start = (some (.ok memory), left)) :
    memory.toList.length = memory.extent ∧
      ∀ address < memory.extent, memory.toList[address]? = some (memory.get address) := by
  obtain ⟨pauses, after, passed, verdict⟩ := Ports.reaches_of_run ran
  obtain ⟨stops, visited⟩ := Wiring.exists_visits passed
  obtain ⟨trails, reached, _⟩ := Wiring.trails_of_reaches visited
  obtain ⟨stored, _⟩ := Wiring.memory_of_reaches reached
  have same : after.memory = memory := by
    unfold Machine.verdict? at verdict
    split at verdict <;> cases verdict
    rfl
  have proper : memory.size ≤ memory.extent := by
    rw [← same, stored, Memory.size_storeAll, Memory.size_ofProgram]
    exact Memory.size_le_extent_stored
  exact ⟨Memory.length_toList proper, fun address inside => Memory.toList_getElem? inside⟩

/-- A console that runs one machine comes to an end just if the machine does. It prints the words
that the machine writes, one a line, however the machine ends. When the machine halts, the console
succeeds without a complaint, and where it is asked for prints one more line, from which the final
memory up to its extent is read back. When the machine fails, the console fails, and the error is
all there is to complain about. -/
theorem console_shows_what_the_machine_does (filterText? : Option String)
    (read : Options.ofArguments arguments = .ok options) (alone : options.phases = [])
    (executed : options.noExec = false) (given : desk.textAt options.file = .ok source)
    (loads : options.Loads source program) (writable : desk.Writable options program)
    (enough : desk.input.length ≤ fuel) :
    let start : Bench := { lines := desk.input, words := options.input }
    let ended := ((Machine.ofProgram program).run options.wiring.ports (fun _ => pure ()) fuel).run
      start
    let shown := desk.run filterText? fuel arguments
    let written := ended.2.written.map fun word => toString word.toInt
    (shown.1.isSome ↔ ended.1.isSome) ∧
    (∀ memory, ended.1 = some (.ok memory) →
      let dump := Program.render ⟨memory.toList⟩
      shown.1.map Exit.code = some 0 ∧ shown.2.complaints = desk.complaints ∧
      shown.2.output.toList =
        desk.output.toList ++ written ++ (if options.dumpMemory then [dump] else []) ∧
      '\n' ∉ dump.toList ∧ Program.parse dump = .ok ⟨memory.toList⟩ ∧
      memory.toList.length = memory.extent ∧
      ∀ address < memory.extent, memory.toList[address]? = some (memory.get address)) ∧
    ∀ fault, ended.1 = some (.error fault) →
      shown.1.map Exit.code = some 1 ∧
      shown.2.complaints.toList =
        desk.complaints.toList ++ ["runtime-error: " ++ fault.message] ∧
      shown.2.output.toList = desk.output.toList ++ written := by
  intro start ended shown written
  obtain ⟨finished, ran, output, complaints⟩ :=
    run_eq filterText? read given loads writable alone executed enough
  have same : shown = (finishMachine host options ended.1).run finished := ran
  refine ⟨?_, fun memory halted => ?_, fun fault failed => ?_⟩
  · rw [same]
    match ended.1 with
    | none => exact Iff.rfl
    | some (.ok memory) => rw [finishMachine_ok]; exact Iff.rfl
    | some (.error fault) => rw [finishMachine_error]; exact Iff.rfl
  · have ends : ((Machine.ofProgram program).run options.wiring.ports (fun _ => pure ()) fuel).run
        start = (some (.ok memory), ended.2) := Prod.ext halted rfl
    refine ⟨?_, ?_, ?_, newline_notMem_render _, Program.parse_of_render _, toList_of_run ends⟩ <;>
      rw [same, halted, finishMachine_ok]
    · rfl
    · rw [← complaints]
      split <;> rfl
    · rw [← output]
      split <;> simp
  · rw [same, failed, finishMachine_error]
    refine ⟨rfl, ?_, output⟩
    simp [complaining, complaints]

/-- A program that reads two words and writes the first, once on two words and once on a line that
is none. -/
theorem first_word_is_shown :
    let text := "3,0,4,0,3,0,99"
    let halting : Desk := { ofText text with input := [.text "", .text " 7", .text "-8"] }
    let failing : Desk := { ofText text with input := [.text "7", .text "x"] }
    let halted := halting.run none 9 ["--stdin", "-m", "prog"]
    let failed := failing.run none 9 ["--stdin", "-m", "prog"]
    (halted.1.map Exit.code = some 0 ∧ halted.2.complaints = #[] ∧
      halted.2.output.toList = ["7", "-8,0,4,0,3,0,99"]) ∧
    (failed.1.map Exit.code = some 1 ∧ failed.2.output.toList = ["7"] ∧
      failed.2.complaints.toList = ["runtime-error: input is exhausted @ 4"]) := by
  intro text halting failing halted failed
  let options : Options := { stdin := true, dumpMemory := true, file := "prog" }
  let program : Program := ⟨[3, 0, 4, 0, 3, 0, 99]⟩
  have read : Options.ofArguments ["--stdin", "-m", "prog"] = .ok options := rfl
  have loads : options.Loads text program :=
    show Program.parse text = .ok program by decide +kernel
  have given (input : List Content) :
      ({ ofText text with input } : Desk).textAt "prog" = .ok text := by
    have files : ({ ofText text with input } : Desk).files = (ofText text).files := rfl
    rw [textAt_congr files]
    exact prog_isName.textAt_store _ text
  have writable (desk : Desk) : desk.Writable options program := by
    rintro path ⟨⟩
  have cells : Memory.toList { dense := #[-8, 0, 4, 0, 3, 0, 99] } = [-8, 0, 4, 0, 3, 0, 99] := by
    rw [Memory.toList, Memory.extent, Std.ExtTreeMap.maxKey?_empty]
    rfl
  obtain ⟨_, succeeds, _⟩ := console_shows_what_the_machine_does none read rfl rfl (given _) loads
    (writable halting) (show halting.input.length ≤ 9 by decide)
  obtain ⟨_, _, refuses⟩ := console_shows_what_the_machine_does none read rfl rfl (given _) loads
    (writable failing) (show failing.input.length ≤ 9 by decide)
  obtain ⟨success, silent, output, _⟩ :=
    succeeds { dense := #[-8, 0, 4, 0, 3, 0, 99] } (by decide +kernel)
  obtain ⟨failure, complaint, partly⟩ := refuses ⟨.inputExhausted, 4⟩ (by decide +kernel)
  refine ⟨⟨success, silent, ?_⟩, failure, ?_, ?_⟩
  · rw [output, cells]
    decide +kernel
  · rw [partly]
    decide +kernel
  · rw [complaint]
    decide +kernel

end Desk

end Intcode.Console
