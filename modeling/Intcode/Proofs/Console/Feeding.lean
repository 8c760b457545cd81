import Intcode.Proofs.Console.Lines
import Intcode.Proofs.Console.Saving

namespace Intcode.Console

open Content

namespace Desk

variable {desk piped given : Desk} {words : List Word} {fuel : Nat} {filter another : LogFilter}

/-- Desks with the same prints so far. -/
structure SamePrints (left right : Desk) : Prop where
  output : left.output = right.output
  complaints : left.complaints = right.complaints

/-- The first desk has the lines to come that hold the words left for the second one. -/
structure Fed (fuel : Nat) (words : List Word) (piped given : Desk) : Prop
    extends SamePrints piped given where
  files : piped.files = given.files
  supply : Supply piped.input words
  enough : piped.input.length ≤ fuel

/-- The next value is read from its line, behind the blank lines before it. Only the log tells of a
line that holds none. -/
theorem readValue_run (desk : Desk) (enough : desk.input.length ≤ fuel) :
    ∃ log, (readValue host (logging host filter) fuel).run desk =
      (.ofValue? (nextValue desk.input).1,
        { desk with input := (nextValue desk.input).2, log }) := by
  -- Each blank line costs a step, so there is enough fuel as long as it covers the lines.
  induction fuel generalizing desk with
  | zero =>
      have none : desk.input = [] := List.eq_nil_of_length_eq_zero (Nat.le_zero.mp enough)
      refine ⟨desk.log, ?_⟩
      rw [none, nextValue, ← none]
      rfl
  | succ fuel ih =>
      have line : host.readLine.run desk = desk.readLine := rfl
      rw [readValue, run_bind, line, readLine]
      cases lines : desk.input with
      | nil => exact ⟨desk.log, rfl⟩
      | cons content rest =>
          rw [lines, List.length_cons] at enough
          cases content with
          | undecodable =>
              obtain ⟨log, told⟩ := logging_eq filter (.unreadableInput FileError.notUtf8.message)
                { desk with input := rest }
              refine ⟨log, ?_⟩
              simp only [List.head?_cons, Option.map_some, Content.read, List.tail_cons]
              rw [run_bind, told]
              rfl
          | text line =>
              simp only [List.head?_cons, Option.map_some, Content.read, List.tail_cons,
                nextValue]
              split
              · exact ih { desk with input := rest } (by simpa using enough)
              · cases parsed : Word.parse (Text.trim line.toList) with
                | ok word => exact ⟨desk.log, rfl⟩
                | error error =>
                    obtain ⟨log, told⟩ := logging_eq filter
                      (.invalidInput (String.ofList (Text.trim line.toList)) error)
                      { desk with input := rest }
                    refine ⟨log, ?_⟩
                    dsimp only
                    rw [run_bind, told]
                    rfl

/-- The options with which values come from standard input. -/
def piping (settings : Settings) (file : String) : Options :=
  { settings with stdin := true, input := [], file }

/-- The options with which these values are given. -/
def giving (settings : Settings) (words : List Word) (file : String) : Options :=
  { settings with stdin := false, input := words, file }

variable {settings : Settings} {file source : String} {filterText? another? : Option String}

theorem Fed.told (fed : Fed fuel words piped given) (pipedLog givenLog : Array String) :
    Fed fuel words { piped with log := pipedLog } { given with log := givenLog } :=
  ⟨⟨fed.output, fed.complaints⟩, fed.files, fed.supply, fed.enough⟩

theorem logging_fed (event : Event) :
    (Correspondence.keeping (Fed fuel words)).Holds (logging host filter event)
      (logging host another event) :=
  logging_keeps (fun pipedLog givenLog fed => fed.told pipedLog givenLog) filter another event

/-- Runs whose reads are answered alike, the one from its lines and the other from its words. -/
def feeding (fuel : Nat) :
    Correspondence (StateT (List Word) (StateM Desk)) (StateT (List Word) (StateM Desk)) where
  Holds left right := ∀ unused words piped given, Fed fuel words piped given →
    let pipedEnd := (left.run unused).run piped
    let givenEnd := (right.run words).run given
    pipedEnd.1.1 = givenEnd.1.1 ∧ Fed fuel givenEnd.1.2 pipedEnd.2 givenEnd.2
  pure _ _ _ _ _ fed := ⟨rfl, fed⟩
  bind {_ _ left _ _ after} first later unused words piped given fed := by
    obtain ⟨same, fed⟩ := first unused words piped given fed
    have rest := later ((left.run unused).run piped).1.1 ((left.run unused).run piped).1.2 _ _ _ fed
    rw [congrArg after same] at rest
    exact rest

theorem run_liftM {α : Type} (step : StateM Desk α) (words : List Word) (desk : Desk) :
    ((liftM step : StateT (List Word) (StateM Desk) α).run words).run desk =
      (((step.run desk).1, words), (step.run desk).2) := rfl

theorem feeding_told (event : Event) :
    (feeding fuel).Holds (liftM (logging host filter event)) (liftM (logging host another event)) :=
  fun _ _ piped given fed => logging_fed event piped given fed

theorem ports_fed (nonempty : words ≠ []) :
    (ports host (logging host filter) fuel (piping settings file)).Correspond (feeding fuel)
      (ports host (logging host another) fuel (giving settings words file)) where
  read unused left piped given fed := by
    obtain ⟨value, supply⟩ := fed.supply.nextValue
    obtain ⟨log, read⟩ := readValue_run piped fed.enough
    rw [value] at read
    have fromLines :
        ((ports host (logging host filter) fuel (piping settings file)).read.run unused).run piped =
          ((.ofValue? left.head?, unused),
            { piped with input := (nextValue piped.input).2, log }) := by
      simp only [ports, piping, if_true]
      rw [run_liftM, read]
    have fromWords :
        ((ports host (logging host another) fuel (giving settings words file)).read.run left).run
          given = ((.ofValue? left.head?, left.tail), given) := by
      have filled : words.isEmpty = false := by simpa using nonempty
      simp only [ports, giving, filled, Bool.false_eq_true, if_false]
      rfl
    simp only [fromLines, fromWords, true_and]
    exact ⟨⟨fed.output, fed.complaints⟩, fed.files, supply,
      (nextValue_length_le piped.input).trans fed.enough⟩
  write word unused left piped given fed :=
    ⟨rfl, ⟨congrArg (·.push word.render) fed.output, fed.complaints⟩, fed.files, fed.supply,
      fed.enough⟩

/-- A machine runs between what is told of its start and what is printed of its end. -/
theorem runMachine_eq (filter : LogFilter) (fuel : Nat) (options : Options) (program : Program)
    (desk : Desk) :
    ∃ log,
      let ended := (((Machine.ofProgram program).run (ports host (logging host filter) fuel options)
        (fun event => liftM (logging host filter event)) fuel).run options.input).run
          { desk with log }
      (runMachine host (logging host filter) fuel options program).run desk =
        (finishMachine host options ended.1.1).run ended.2 := by
  obtain ⟨created, told⟩ := logging_eq filter (.machineCreated program.size) desk
  unfold runMachine
  rw [run_bind, told]
  dsimp only
  split
  · obtain ⟨counted, told⟩ :=
      logging_eq filter (.inputGiven options.input.length) { desk with log := created }
    rw [run_bind, told]
    exact ⟨counted, rfl⟩
  · exact ⟨created, rfl⟩

/-- Runs with the same answer and the same prints. -/
def Matches (left right : Option Exit × Desk) : Prop :=
  left.1 = right.1 ∧ left.2.SamePrints right.2

theorem host_prints : host.Print (.keeping SamePrints) host where
  print line _ _ same := ⟨rfl, congrArg (·.push line) same.output, same.complaints⟩
  complain line _ _ same := ⟨rfl, same.output, congrArg (·.push line) same.complaints⟩

theorem logging_prints (event : Event) :
    (Correspondence.keeping SamePrints).Holds (logging host filter event)
      (logging host another event) :=
  logging_keeps (fun _ _ same => ⟨same.output, same.complaints⟩) filter another event

theorem runMachine_fed (fed : Fed fuel words piped given) (nonempty : words ≠ [])
    (program : Program) :
    Matches
      ((runMachine host (logging host filter) fuel (piping settings file) program).run piped)
      ((runMachine host (logging host another) fuel (giving settings words file) program).run
        given) := by
  obtain ⟨pipedLog, left⟩ := runMachine_eq filter fuel (piping settings file) program piped
  obtain ⟨givenLog, right⟩ := runMachine_eq another fuel (giving settings words file) program given
  have wired : (ports host (logging host filter) fuel (piping settings file)).Correspond
      (feeding fuel) (ports host (logging host another) fuel (giving settings words file)) :=
    ports_fed nonempty
  obtain ⟨same, ended⟩ := Machine.run_corresponds wired feeding_told fuel (.ofProgram program)
    (piping settings file).input words _ _ (fed.told pipedLog givenLog)
  have finish (answer : Option (Except Fault Memory)) :
      finishMachine host (piping settings file) answer =
        finishMachine host (giving settings words file) answer := rfl
  rw [left, right, finish, same]
  exact finishMachine_corresponds host_prints _ _ _ _ ended.toSamePrints

theorem locate_congr (files : piped.files = given.files) (path : String) (steps : List String) :
    piped.locate path steps = given.locate path steps := by
  have content (route : Route) : piped.content? route = given.content? route := by
    simp only [content?, files]
  have follows (route : Route) (steps : List String) :
      piped.follow route steps = given.follow route steps := by
    induction steps generalizing route with
    | nil => rfl
    | cons step rest ih => simp only [follow, content, ih]
  simp only [locate, follows]

theorem textAt_congr (files : piped.files = given.files) (path : String) :
    piped.textAt path = given.textAt path := by
  simp only [textAt, locate_congr files]

theorem carryOut_fed (fed : Fed fuel words piped given) (nonempty : words ≠ [])
    (program : Program) :
    Matches
      ((carryOut host (logging host filter) fuel (piping settings file) program).run piped)
      ((carryOut host (logging host another) fuel (giving settings words file) program).run
        given) := by
  unfold carryOut
  split <;> rename_i skipped
  · rw [if_pos (show (giving settings words file).noExec = true from skipped)]
    exact ⟨rfl, fed.toSamePrints⟩
  rw [if_neg (show ¬(giving settings words file).noExec = true from skipped)]
  split <;> rename_i alone
  · rw [if_pos (show (giving settings words file).phases.isEmpty = true from alone)]
    exact runMachine_fed fed nonempty program
  · rw [if_neg (show ¬(giving settings words file).phases.isEmpty = true from alone)]
    have networks : (Correspondence.keeping SamePrints).Holds
        (runNetwork host (logging host filter) fuel (giving settings words file) program)
        (runNetwork host (logging host another) fuel (giving settings words file) program) :=
      runNetwork_corresponds host_prints logging_prints fuel
    exact networks piped given fed.toSamePrints

theorem save_of_unsaved {options : Options} (unsaved : options.output = none) (program : Program) :
    save host options program = (pure (.ok ()) : StateM Desk _) := by
  unfold save
  rw [unsaved]
  cases options.assembly <;> rfl

theorem proceed_fed (fed : Fed fuel words piped given) (nonempty : words ≠ [])
    (unsaved : settings.output = none) (program : Program) :
    Matches ((proceed filterText? fuel (piping settings file) program).run piped)
      ((proceed another? fuel (giving settings words file) program).run given) := by
  have pipedUnsaved : (piping settings file).output = none := unsaved
  have givenUnsaved : (giving settings words file).output = none := unsaved
  simp only [proceed, save_of_unsaved pipedUnsaved, save_of_unsaved givenUnsaved, pure_bind]
  obtain ⟨-, fed⟩ := logging_fed (.programLoaded program.size) piped given fed
  exact carryOut_fed fed nonempty program

theorem execute_unreadable {options : Options} {error : FileError}
    (unreadable : desk.textAt options.file = .error error) :
    (execute host filterText? fuel options).run desk =
      (some <$> failing host [s!"Failed to read file to UTF-8: {error.message}"]).run desk := by
  have read : (host.readFile options.file).run desk = (.error error, desk) := by
    rw [← unreadable]
    rfl
  unfold execute
  dsimp only
  rw [run_bind, read]

theorem execute_fed (fed : Fed fuel words piped given) (nonempty : words ≠ [])
    (unsaved : settings.output = none) :
    Matches ((execute host filterText? fuel (piping settings file)).run piped)
      ((execute host another? fuel (giving settings words file)).run given) := by
  have failed (lines : List String) {piped given : Desk} (same : piped.SamePrints given) :
      Matches ((some <$> failing host lines).run piped) ((some <$> failing host lines).run given) :=
    Correspondence.map _ some (failing_corresponds host_prints lines) _ _ same
  cases read : given.textAt file with
  | error error =>
      have readPiped : piped.textAt file = .error error := (textAt_congr fed.files file).trans read
      rw [execute_unreadable readPiped, execute_unreadable read]
      exact failed _ fed.toSamePrints
  | ok source =>
      have readPiped : piped.textAt file = .ok source := (textAt_congr fed.files file).trans read
      have told (event : Event) : (Correspondence.keeping (Fed fuel words)).Holds
          (reporting filterText? (piping settings file) event)
          (reporting another? (giving settings words file) event) := logging_fed event
      have loads : (Correspondence.keeping (Fed fuel words)).Holds
          (load (reporting filterText? (piping settings file)) (piping settings file) source)
          (load (reporting another? (giving settings words file)) (giving settings words file)
            source) :=
        load_corresponds told rfl rfl source
      obtain ⟨same, fed⟩ := loads piped given fed
      rw [execute_eq readPiped, execute_eq read, run_bind, run_bind, same]
      cases ((load (reporting another? (giving settings words file)) (giving settings words file)
        source).run given).1 with
      | error complaint => exact failed complaint fed.toSamePrints
      | ok program => exact proceed_fed fed nonempty unsaved program

end Desk

namespace Draft

variable {draft : Draft} {file : String}

/-- An argument without a dash is the file. -/
theorem readArguments_file (named : file ≠ "") (plain : isDashed file = false)
    (free : draft.file = none) :
    draft.readArguments none [file] = .ok { draft with file := some file } := by
  have placed : draft.place file = .ok { draft with file := some file } := by
    rw [place, free, if_neg (by simpa [String.isEmpty_iff] using named)]
  unfold readArguments
  dsimp only
  split
  case h_4 =>
    rw [placed]
    rfl
  all_goals
    rename_i spelled
    rw [isDashed, spelled] at plain
    cases plain

theorem readWords_render {words : List Word} (nonempty : words ≠ []) :
    readWords (Program.render ⟨words⟩) = .ok words := by
  have read : (fun word : Word => (Word.parse word.digits).mapError fun _ => Stop.usage) = pure := by
    funext word
    rw [Word.parse_digits]
    rfl
  rw [readWords, Program.splitOn_render nonempty, List.mapM_map, Function.comp_def, read]
  exact (List.mapM_pure (f := id)).trans (congrArg Except.ok (List.map_id words))

end Draft

/-- Arguments that ask for assembly and for the memory, or not. -/
def switches (assembly dumpMemory : Bool) : List String :=
  (if assembly then ["-a"] else []) ++ if dumpMemory then ["-m"] else []

variable {words : List Word} {file : String}

theorem ofArguments_piping (named : file ≠ "") (plain : isDashed file = false)
    (assembly dumpMemory : Bool) :
    Options.ofArguments (switches assembly dumpMemory ++ ["--stdin", file]) =
      .ok (Desk.piping { assembly, dumpMemory } file) := by
  have switched :
      ({} : Draft).readArguments none (switches assembly dumpMemory ++ ["--stdin", file]) =
        ({ settings := { assembly, dumpMemory, stdin := true } } : Draft).readArguments none
          [file] := by
    cases assembly <;> cases dumpMemory <;> rfl
  rw [Options.ofArguments, switched, Draft.readArguments_file named plain rfl]
  rfl

theorem ofArguments_giving (named : file ≠ "") (plain : isDashed file = false)
    (nonempty : words ≠ []) (assembly dumpMemory : Bool) :
    Options.ofArguments (switches assembly dumpMemory ++ ["-i", Program.render ⟨words⟩, file]) =
      .ok (Desk.giving { assembly, dumpMemory } words file) := by
  have switched : ({} : Draft).readArguments none
      (switches assembly dumpMemory ++ ["-i", Program.render ⟨words⟩, file]) =
        ({ settings := { assembly, dumpMemory } } : Draft).readArguments (some .input)
          [Program.render ⟨words⟩, file] := by
    cases assembly <;> cases dumpMemory <;> rfl
  have put : ({ settings := { assembly, dumpMemory } } : Draft).put .input (Program.render ⟨words⟩) =
      .ok { settings := { assembly, dumpMemory, input := words } } := by
    simp only [Draft.put, Draft.readWords_render nonempty]
    rfl
  rw [Options.ofArguments, switched, Draft.readArguments]
  simp only [Setting.allowsDash, Bool.not_true, Bool.and_false, Bool.false_eq_true, if_false, put]
  change (({ settings := { assembly, dumpMemory, input := words } } : Draft).readArguments none
    [file] >>= Draft.finish) = _
  rw [Draft.readArguments_file named plain rfl]
  rfl

namespace Desk

/-- Where a text gives the words, one a line and any blank lines between them, a program answers and
prints the same from standard input as from the words on the command line. -/
theorem piped_input_does_as_given {text : String} (nonempty : words ≠ [])
    (gives : Text.Gives text.toList words) (named : file ≠ "") (plain : isDashed file = false)
    (desk : Desk) (assembly dumpMemory : Bool) (filterText? another? : Option String) {fuel : Nat}
    (enough : (linesOfBytes text.toUTF8.data.toList).length ≤ fuel) :
    let piped := { desk with input := linesOfBytes text.toUTF8.data.toList }
    let fromLines := piped.run filterText? fuel (switches assembly dumpMemory ++ ["--stdin", file])
    let fromWords := desk.run another? fuel
      (switches assembly dumpMemory ++ ["-i", Program.render ⟨words⟩, file])
    fromLines.1 = fromWords.1 ∧ fromLines.2.output = fromWords.2.output ∧
      fromLines.2.complaints = fromWords.2.complaints := by
  have supply : Supply (linesOfBytes text.toUTF8.data.toList) words := by
    rw [Text.encode_eq]
    exact supply_of_gives gives
  have fed : Fed fuel words { desk with input := linesOfBytes text.toUTF8.data.toList } desk :=
    ⟨⟨rfl, rfl⟩, rfl, supply, enough⟩
  have ran : Matches
      ((execute host filterText? fuel (piping { assembly, dumpMemory } file)).run
        { desk with input := linesOfBytes text.toUTF8.data.toList })
      ((execute host another? fuel (giving { assembly, dumpMemory } words file)).run desk) :=
    execute_fed fed nonempty rfl
  dsimp only
  rw [run_of_options (ofArguments_piping named plain assembly dumpMemory),
    run_of_options (ofArguments_giving named plain nonempty assembly dumpMemory)]
  exact ⟨ran.1, ran.2.output, ran.2.complaints⟩

/-- Two values, the first one on a line with a carriage return, and a blank line between them. -/
def twoLines : String := " +007\r\n\t\n-5 "

theorem twoLines_give : Text.Gives twoLines.toList [7, -5] := by
  have blank {char : Char} (blank : Text.isBlank char = true) :
      ∀ other ∈ [char], Text.isBlank other = true := List.forall_mem_singleton.mpr blank
  have seven : Text.LineGives [' ', '+', '0', '0', '7'] [7] :=
    @Text.LineGives.value [' '] ['+', '0', '0', '7'] [] 7 (blank (by decide))
      (Word.parse_eq_ok_iff.mp (by decide +kernel)) (List.forall_mem_nil _)
  have minusFive : Text.LineGives ['-', '5', ' '] [-5] :=
    @Text.LineGives.value [] ['-', '5'] [' '] (-5) (List.forall_mem_nil _)
      (Word.parse_eq_ok_iff.mp (by decide +kernel)) (blank (by decide))
  have behind : Text.Gives (['\t'] ++ '\n' :: ['-', '5', ' ']) ([] ++ [-5]) :=
    .feed (by decide) (.blank (blank (by decide))) (.last (by decide) minusFive)
  have whole : Text.Gives
      ([' ', '+', '0', '0', '7'] ++ '\r' :: '\n' :: (['\t'] ++ '\n' :: ['-', '5', ' ']))
        ([7] ++ ([] ++ [-5])) := .returnFeed (by decide) seven behind
  exact whole

/-- A program that copies words for ever. -/
def copier : Desk := ofText "3,7,4,7,1105,1,0,0"

/-- After two words the copier wants a third one, which neither way of input has. -/
theorem copier_fails_alike :
    let piped := { copier with input := linesOfBytes twoLines.toUTF8.data.toList }
    let fromLines := piped.run (some "trace") 20 ["-m", "--stdin", "prog"]
    let fromWords := copier.run none 20 ["-m", "-i", "7,-5", "prog"]
    fromLines.1 = fromWords.1 ∧ fromLines.2.output = fromWords.2.output ∧
      fromLines.2.complaints = fromWords.2.complaints ∧ fromWords.1 = some .failure ∧
      fromWords.2.output = #["7", "-5"] ∧ fromWords.2.complaints.size = 1 := by
  have written : Program.render ⟨[7, -5]⟩ = "7,-5" := by decide +kernel
  have enough : (linesOfBytes twoLines.toUTF8.data.toList).length ≤ 20 := by decide +kernel
  have agree := piped_input_does_as_given (List.cons_ne_nil _ _) twoLines_give
    (by decide : "prog" ≠ "") (by decide) copier false true (some "trace") none enough
  have asked : switches false true ++ ["--stdin", "prog"] = ["-m", "--stdin", "prog"] := rfl
  have askedWords :
      switches false true ++ ["-i", "7,-5", "prog"] = ["-m", "-i", "7,-5", "prog"] := rfl
  rw [written, asked, askedWords] at agree
  dsimp only at agree ⊢
  exact ⟨agree.1, agree.2.1, agree.2.2, by decide +kernel, by decide +kernel, by decide +kernel⟩

end Desk

end Intcode.Console
