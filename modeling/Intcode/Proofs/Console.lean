import Intcode.Console.Desk
import Intcode.Proofs.Correspondence

namespace Intcode.Console

section

variable {m n : Type → Type} [Monad m] [Monad n] {corresponds : Correspondence m n}
  {host : Host m} {another : Host n} {report : Event → m Unit} {other : Event → n Unit}

/-- Hosts whose prints correspond. -/
structure Host.Print (corresponds : Correspondence m n) (host : Host m) (another : Host n) :
    Prop where
  print : ∀ line, corresponds.Holds (host.print line) (another.print line)
  complain : ∀ line, corresponds.Holds (host.complain line) (another.complain line)

/-- Hosts whose input corresponds too. -/
structure Host.Correspond (corresponds : Correspondence m n) (host : Host m) (another : Host n) :
    Prop extends Host.Print corresponds host another where
  readLine : corresponds.Holds host.readLine another.readLine

theorem failing_corresponds (same : host.Print corresponds another) (lines : List String) :
    corresponds.Holds (failing host lines) (failing another lines) :=
  corresponds.bind (corresponds.forM same.complain lines) fun _ => corresponds.pure _

theorem readValue_corresponds (same : host.Correspond corresponds another)
    (told : ∀ event, corresponds.Holds (report event) (other event)) (fuel : Nat) :
    corresponds.Holds (readValue host report fuel) (readValue another other fuel) := by
  induction fuel with
  | zero => exact corresponds.pure _
  | succ fuel ih =>
      refine corresponds.bind same.readLine fun answer => ?_
      match answer with
      | none => exact corresponds.pure _
      | some (.error error) => exact corresponds.bind (told _) fun _ => corresponds.pure _
      | some (.ok line) =>
          dsimp only
          split
          · exact ih
          · split
            · exact corresponds.pure _
            · exact corresponds.bind (told _) fun _ => corresponds.pure _

variable {options others : Options} {program : Program}

/-- Loading goes by the file's name and by whether it is assembly. -/
theorem load_corresponds (told : ∀ event, corresponds.Holds (report event) (other event))
    (assembly : options.assembly = others.assembly) (file : options.file = others.file)
    (source : String) :
    corresponds.Holds (load report options source) (load other others source) := by
  simp only [load, assembly, file]
  split
  · split
    · exact corresponds.bind (told _) fun _ => corresponds.pure _
    · exact corresponds.pure _
  · split <;> exact corresponds.pure _

theorem ports_correspond (same : host.Correspond corresponds another)
    (told : ∀ event, corresponds.Holds (report event) (other event)) (fuel : Nat) :
    (ports host report fuel options).Correspond (corresponds.stateT (List Word))
      (ports another other fuel options) where
  read := by
    unfold ports
    dsimp only
    split
    · exact corresponds.lift (readValue_corresponds same told fuel)
    split
    · exact (corresponds.stateT _).pure _
    · exact corresponds.modifyGet _
  write word := corresponds.lift (same.print word.render)

/-- What is printed and answered when a machine is over. -/
def finishMachine (host : Host m) (options : Options) :
    Option (Except Fault Memory) → m (Option Exit)
  | none => pure none
  | some (.error fault) => some <$> failing host [s!"runtime-error: {fault.message}"]
  | some (.ok memory) => do
      if options.dumpMemory then host.print (Program.render ⟨memory.toList⟩)
      pure (some .success)

/-- What is printed and answered when a chain or a ring is over. -/
def finishNetwork (host : Host m) : Option Signal → m (Option Exit)
  | none => pure none
  | some (.error error) => some <$> failing host [s!"runtime-error: {error.message}"]
  | some (.ok word) => do
      host.print word.render
      pure (some .success)

variable [LawfulMonad m] [LawfulMonad n]

theorem finishMachine_corresponds (same : host.Print corresponds another) (options : Options)
    (answer : Option (Except Fault Memory)) :
    corresponds.Holds (finishMachine host options answer) (finishMachine another options answer) := by
  match answer with
  | none => exact corresponds.pure _
  | some (.error fault) => exact corresponds.map some (failing_corresponds same _)
  | some (.ok memory) =>
      simp only [finishMachine]
      split
      · exact corresponds.bind (same.print _) fun _ => corresponds.pure _
      · exact corresponds.pure _

theorem finishNetwork_corresponds (same : host.Print corresponds another)
    (answer : Option Signal) :
    corresponds.Holds (finishNetwork host answer) (finishNetwork another answer) := by
  match answer with
  | none => exact corresponds.pure _
  | some (.error error) => exact corresponds.map some (failing_corresponds same _)
  | some (.ok word) => exact corresponds.bind (same.print _) fun _ => corresponds.pure _

theorem runMachine_corresponds (same : host.Correspond corresponds another)
    (told : ∀ event, corresponds.Holds (report event) (other event)) (fuel : Nat) :
    corresponds.Holds (runMachine host report fuel options program)
      (runMachine another other fuel options program) := by
  have toldBeside (event : Event) :
      (corresponds.stateT (List Word)).Holds (liftM (report event)) (liftM (other event)) :=
    corresponds.lift (told event)
  have wired : (ports host report fuel options).Correspond (corresponds.stateT (List Word))
      (ports another other fuel options) := ports_correspond same told fuel
  have ran := Machine.run_corresponds wired toldBeside fuel (.ofProgram program)
  have finished := corresponds.bind (ran options.input) fun ended =>
    finishMachine_corresponds same.toPrint options ended.1
  refine corresponds.bind (told _) fun _ => ?_
  dsimp only
  split
  · exact corresponds.bind (told _) fun _ => finished
  · exact finished

theorem runNetwork_corresponds (same : host.Print corresponds another)
    (told : ∀ event, corresponds.Holds (report event) (other event)) (fuel : Nat) :
    corresponds.Holds (runNetwork host report fuel options program)
      (runNetwork another other fuel options program) := by
  unfold runNetwork
  dsimp only
  split
  · exact corresponds.bind (Chain.run_corresponds told fuel program options.phases)
      (finishNetwork_corresponds same)
  · exact corresponds.bind (Ring.run_corresponds told fuel program options.phases)
      (finishNetwork_corresponds same)

/-- What is done with a program once it is loaded and saved. -/
def carryOut (host : Host m) (report : Event → m Unit) (fuel : Nat) (options : Options)
    (program : Program) : m (Option Exit) :=
  if options.noExec then pure (some .success)
  else if options.phases.isEmpty then runMachine host report fuel options program
  else runNetwork host report fuel options program

theorem carryOut_corresponds (same : host.Correspond corresponds another)
    (told : ∀ event, corresponds.Holds (report event) (other event)) (fuel : Nat) :
    corresponds.Holds (carryOut host report fuel options program)
      (carryOut another other fuel options program) := by
  unfold carryOut
  split
  · exact corresponds.pure _
  split
  · exact runMachine_corresponds same told fuel
  · exact runNetwork_corresponds same.toPrint told fuel

end

namespace Desk

/-- Desks with the same input to come, and the same prints so far. -/
structure Alike (left right : Desk) : Prop where
  input : left.input = right.input
  output : left.output = right.output
  complaints : left.complaints = right.complaints

theorem Alike.trans {first second third : Desk} (alike : first.Alike second)
    (next : second.Alike third) : first.Alike third :=
  ⟨alike.input.trans next.input, alike.output.trans next.output,
    alike.complaints.trans next.complaints⟩

theorem Alike.symm {left right : Desk} (alike : left.Alike right) : right.Alike left :=
  ⟨alike.input.symm, alike.output.symm, alike.complaints.symm⟩

/-- Computations that give the same answer on desks that are alike, and leave them alike. -/
def showing : Correspondence (StateM Desk) (StateM Desk) :=
  .keeping Alike

theorem host_corresponds : host.Correspond showing host where
  readLine _ _ alike :=
    ⟨congrArg (·.head?.map Content.read) alike.input, congrArg List.tail alike.input, alike.output,
      alike.complaints⟩
  print line _ _ alike :=
    ⟨rfl, alike.input, congrArg (·.push line) alike.output, alike.complaints⟩
  complain line _ _ alike :=
    ⟨rfl, alike.input, alike.output, congrArg (·.push line) alike.complaints⟩

/-- What is told goes to the log, and nowhere else. -/
theorem logging_eq (filter : LogFilter) (event : Event) (desk : Desk) :
    ∃ log, (logging host filter event).run desk = ((), { desk with log }) := by
  unfold logging
  split
  · exact ⟨_, rfl⟩
  · exact ⟨desk.log, rfl⟩

/-- Telling keeps whatever does not go by the logs. -/
theorem logging_keeps {Related : Desk → Desk → Prop}
    (blind : ∀ {left right : Desk} (leftLog rightLog : Array String), Related left right →
      Related { left with log := leftLog } { right with log := rightLog })
    (filter another : LogFilter) (event : Event) :
    (Correspondence.keeping Related).Holds (logging host filter event)
      (logging host another event) := by
  intro left right related
  obtain ⟨leftLog, told⟩ := logging_eq filter event left
  obtain ⟨rightLog, toldAgain⟩ := logging_eq another event right
  rw [told, toldAgain]
  exact ⟨rfl, blind leftLog rightLog related⟩

/-- A desk with a line more on its log, or not, looks the same. -/
theorem logging_alike (filter : LogFilter) (event : Event) (desk : Desk) :
    ((logging host filter event).run desk).2.Alike desk := by
  obtain ⟨log, told⟩ := logging_eq filter event desk
  rw [told]
  exact ⟨rfl, rfl, rfl⟩

theorem logging_corresponds (filter another : LogFilter) (event : Event) :
    showing.Holds (logging host filter event) (logging host another event) :=
  logging_keeps (fun _ _ alike => ⟨alike.input, alike.output, alike.complaints⟩) filter another event

end Desk

end Intcode.Console
