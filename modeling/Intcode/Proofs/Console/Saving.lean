import Intcode.Proofs.Console
import Intcode.Proofs.Console.Arguments
import Intcode.Proofs.Program.Text

namespace Intcode.Console.Desk

variable {desk after : Desk} {options : Options} {source : String} {filterText? : Option String}
  {fuel : Nat}

/-- What is told with some options. -/
def reporting (filterText? : Option String) (options : Options) (event : Event) :
    StateM Desk Unit :=
  logging host (LogFilter.choose filterText? options.verbosity) event

theorem run_of_options {arguments : List String}
    (read : Options.ofArguments arguments = .ok options) :
    desk.run filterText? fuel arguments = (execute host filterText? fuel options).run desk := by
  simp only [run, Console.run, read]

theorem run_bind {α β : Type} {first : StateM Desk α} {next : α → StateM Desk β} :
    (first >>= next).run desk = (next (first.run desk).1).run (first.run desk).2 := rfl

/-- A loaded program is saved and carried out. -/
def proceed (filterText? : Option String) (fuel : Nat) (options : Options) (program : Program) :
    StateM Desk (Option Exit) := do
  reporting filterText? options (.programLoaded program.size)
  match ← save host options program with
  | .error error => some <$> failing host [s!"Failed to write to file: {error.message}"]
  | .ok () => carryOut host (reporting filterText? options) fuel options program

theorem execute_eq (given : desk.textAt options.file = .ok source) :
    (execute host filterText? fuel options).run desk = (do
      match ← load (reporting filterText? options) options source with
      | .error complaint => some <$> failing host complaint
      | .ok program => proceed filterText? fuel options program : StateM Desk _).run desk := by
  have read : (host.readFile options.file).run desk = (.ok source, desk) := by
    rw [← given]
    rfl
  unfold execute
  dsimp only
  rw [run_bind, read]
  rfl

/-- A program in words is read and goes on. -/
theorem execute_words {program : Program} (given : desk.textAt options.file = .ok source)
    (words : options.assembly = false) (parsed : Program.parse source = .ok program) :
    (execute host filterText? fuel options).run desk =
      (proceed filterText? fuel options program).run desk := by
  have loaded : load (reporting filterText? options) options source = pure (.ok program) := by
    simp only [load, words, parsed, Bool.false_eq_true, if_false]
  rw [execute_eq given, loaded, pure_bind]

theorem execute_assembly {listing : Assembly.Listing} (given : desk.textAt options.file = .ok source)
    (assembly : options.assembly = true) (assembled : Assembly.Listing.ofSource source = .ok listing) :
    (execute host filterText? fuel options).run desk =
      (proceed filterText? fuel options listing.program).run
        ((reporting filterText? options listing.event).run desk).2 := by
  have loaded : load (reporting filterText? options) options source = (do
      reporting filterText? options listing.event
      pure (.ok listing.program)) := by
    simp only [load, assembly, assembled, if_true]
  rw [execute_eq given, loaded, bind_assoc, run_bind, pure_bind]

/-- Where nothing is saved, a program is carried out at once, and it makes no difference whether it
was assembled. -/
theorem proceed_alike (another? : Option String) (unsaved : options.output = none)
    (words : options.assembly = false) (program : Program) :
    showing.Holds (proceed filterText? fuel options program)
      (proceed another? fuel { options with assembly := true } program) := by
  have told (event : Event) : showing.Holds (reporting filterText? options event)
      (reporting another? options event) := logging_corresponds _ _ event
  refine showing.bind (told _) fun _ => ?_
  simp only [save, unsaved, words, pure_bind]
  exact carryOut_corresponds host_corresponds told fuel

/-- A path that is just the name of a file. -/
structure IsName (name : String) : Prop where
  notEmpty : name.isEmpty = false
  plain : '/' ∉ name.toList
  notOwn : name ≠ "."
  notParent : name ≠ ".."
  short : name.utf8ByteSize ≤ 255

variable {name text : String}

theorem IsName.steps_eq (isName : IsName name) : steps name = [name] := by
  have whole : name.toList.splitOn '/' = [name.toList] := by
    have joined := List.splitOn_intercalate '/' (List.forall_mem_singleton.mpr isName.plain)
      (List.cons_ne_nil _ _)
    rwa [List.intercalate_singleton] at joined
  rw [steps, whole, List.map_cons, List.map_nil, String.ofList_toList]

theorem IsName.isDirectory_eq (isName : IsName name) : isDirectory [name] = false := by
  have notRoot : name ≠ "/" := by
    rintro rfl
    exact isName.plain (by decide)
  simp [isDirectory, isName.notParent, notRoot]

theorem IsName.locate_eq (isName : IsName name) (desk : Desk) :
    desk.locate name (steps name) =
      .ok ((desk.content? [name]).elim (.absent [name]) (.file [name])) := by
  have short := isName.short
  have relative : name.toList.head? ≠ some '/' := fun root =>
    isName.plain (List.mem_of_head? root)
  rw [locate, if_neg (by omega), if_neg relative, isName.steps_eq, follow]
  simp only [isName.notEmpty, isName.notOwn, isName.notParent, decide_false, Bool.or_false,
    Bool.false_eq_true, if_false, if_neg (Nat.not_lt.mpr short), List.nil_append, List.isEmpty_nil,
    if_true, isName.isDirectory_eq]
  cases desk.content? [name] <;> rfl

theorem IsName.writeFile_eq (isName : IsName name) (desk : Desk) (text : String) :
    desk.writeFile name text = (.ok (), desk.store [name] text) := by
  have noSlash : name.toList.getLast? ≠ some '/' := fun slash =>
    isName.plain (List.mem_of_getLast? slash)
  rw [writeFile, if_neg noSlash, isName.locate_eq]
  cases desk.content? [name] <;> rfl

theorem IsName.textAt_store (isName : IsName name) (desk : Desk) (text : String) :
    (desk.store [name] text).textAt name = .ok text := by
  have content : (desk.store [name] text).content? [name] = some (.text text) := by
    simp [store, content?, nullDevice]
  rw [textAt, isName.locate_eq, content]
  rfl

theorem out_isName : IsName "out" :=
  ⟨by decide, by decide, by decide, by decide, by decide⟩

/-- A program that was assembled, saved and not run is in its file. -/
theorem saved_of_success (given : desk.textAt options.file = .ok source)
    (assembly : options.assembly = true) (output : options.output = some name)
    (isName : IsName name) (noExec : options.noExec = true)
    (ran : (execute host filterText? fuel options).run desk = (some .success, after)) :
    ∃ listing, Assembly.Listing.ofSource source = .ok listing ∧
      after.textAt name = .ok listing.program.render := by
  cases assembled : Assembly.Listing.ofSource source with
  | error error =>
      have refused : load (reporting filterText? options) options source =
          pure (.error (assemblyComplaint options.file source error)) := by
        simp only [load, assembly, assembled, if_true]
      rw [execute_eq given, refused, pure_bind] at ran
      cases (Prod.mk.inj ran).1
  | ok listing =>
      refine ⟨listing, rfl, ?_⟩
      have saves (desk : Desk) : (save host options listing.program).run desk =
          (.ok (), desk.store [name] listing.program.render) := by
        simp only [save, assembly, output]
        exact isName.writeFile_eq desk _
      rw [execute_assembly given assembly assembled, proceed, run_bind, run_bind, saves] at ran
      simp only [carryOut, noExec, if_true] at ran
      obtain ⟨_, rfl⟩ := Prod.mk.inj ran
      exact isName.textAt_store _ _

/-- Where assembly text can be assembled into a file, running the file is running the text: with
any arguments that neither ask for assembly nor for an output file, the answer, the output and the
complaints are the same. -/
theorem saved_program_does_as_its_assembly (given : desk.textAt "prog" = .ok source)
    (succeeded :
      desk.run filterText? fuel ["-a", "-n", "-o", "out", "prog"] = (some .success, after)) :
    ∃ text, after.textAt "out" = .ok text ∧
      ∀ (arguments : List String) (settings : Settings),
        Options.ofArguments (arguments ++ ["prog"]) = .ok { settings with file := "prog" } →
        settings.assembly = false → settings.output = none →
        ∀ saved direct : Desk, saved.textAt "prog" = .ok text → direct.textAt "prog" = .ok source →
        saved.Alike direct →
        ∀ (savedFilter? directFilter? : Option String) (fuel : Nat),
          let ofWords := saved.run savedFilter? fuel (arguments ++ ["prog"])
          let ofAssembly := direct.run directFilter? fuel ("-a" :: arguments ++ ["prog"])
          ofWords.1 = ofAssembly.1 ∧ ofWords.2.output = ofAssembly.2.output ∧
            ofWords.2.complaints = ofAssembly.2.complaints := by
  have asked : Options.ofArguments ["-a", "-n", "-o", "out", "prog"] =
      .ok { assembly := true, noExec := true, output := some "out", file := "prog" } := rfl
  rw [run_of_options asked] at succeeded
  obtain ⟨listing, assembled, written⟩ :=
    saved_of_success given rfl rfl out_isName rfl succeeded
  refine ⟨_, written, ?_⟩
  intro arguments settings read words unsaved saved direct givenSaved givenDirect alike savedFilter?
    directFilter? fuel
  have readAssembly : Options.ofArguments ("-a" :: arguments ++ ["prog"]) = _ :=
    Options.ofArguments_assembly read words
  have parsed := Program.parse_of_render listing.program
  dsimp only
  rw [run_of_options read, run_of_options readAssembly, execute_words givenSaved words parsed, execute_assembly givenDirect rfl assembled]
  have told := logging_alike (LogFilter.choose directFilter? settings.verbosity) listing.event direct
  have shown : showing.Holds (proceed savedFilter? fuel { settings with file := "prog" } _) _ :=
    proceed_alike directFilter? unsaved words listing.program
  obtain ⟨same, left⟩ := shown saved _ (alike.trans told.symm)
  exact ⟨same, left.output, left.complaints⟩

theorem prog_isName : IsName "prog" :=
  ⟨by decide, by decide, by decide, by decide, by decide⟩

/-- A desk with a program in a file, and nothing else. -/
def ofText (text : String) : Desk :=
  ({} : Desk).store ["prog"] text

/-- A program that copies a word is saved, and run on -3 and 4. -/
theorem saved_copier_does_as_its_assembly :
    ∃ after text,
      (ofText "var x\nin -> x\nout x\nend").run none 0 ["-a", "-n", "-o", "out", "prog"] =
          (some .success, after) ∧
        after.textAt "out" = .ok text ∧
        let ofWords := (ofText text).run (some "trace") 9 ["-i", "-3,4", "prog"]
        let ofAssembly := (ofText "var x\nin -> x\nout x\nend").run none 9
          ["-a", "-i", "-3,4", "prog"]
        ofWords.1 = ofAssembly.1 ∧ ofWords.2.output = ofAssembly.2.output ∧
          ofWords.2.complaints = ofAssembly.2.complaints ∧ ofAssembly.1 = some .success ∧
          ofAssembly.2.output = #["-3"] := by
  have given (text : String) : (ofText text).textAt "prog" = .ok text :=
    prog_isName.textAt_store _ text
  have succeeded : (ofText "var x\nin -> x\nout x\nend").run none 0
      ["-a", "-n", "-o", "out", "prog"] = (some .success, _) := Prod.ext (by decide +kernel) rfl
  obtain ⟨text, written, alike⟩ := saved_program_does_as_its_assembly (given _) succeeded
  have read : Options.ofArguments ["-i", "-3,4", "prog"] =
      .ok { input := [-3, 4], file := "prog" } := by decide +kernel
  obtain ⟨same, output, complaints⟩ := alike ["-i", "-3,4"] { input := [-3, 4] } read rfl rfl _ _
    (given _) (given _) ⟨rfl, rfl, rfl⟩ (some "trace") none 9
  exact ⟨_, text, succeeded, written, same, output, complaints, by decide +kernel,
    by decide +kernel⟩

end Intcode.Console.Desk
