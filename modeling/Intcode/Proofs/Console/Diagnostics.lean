import Intcode.Proofs.Assembly.Mentions
import Intcode.Proofs.Console.Saving

namespace Intcode.Console.Desk

/-- A desk with lines printed on standard error. -/
def complaining (desk : Desk) (lines : List String) : Desk :=
  { desk with complaints := desk.complaints ++ lines.toArray }

variable {desk : Desk} {source : String} {error : AssemblyError} {options : Options}
  {arguments : List String} {filterText? : Option String} {fuel : Nat}

theorem forM_complain (lines : List String) :
    (lines.forM host.complain).run desk = ((), desk.complaining lines) := by
  induction lines generalizing desk with
  | nil =>
      have same : desk.complaining [] = desk := by simp [complaining]
      rw [same]
      rfl
  | cons line rest ih =>
      have first : (host.complain line).run desk = ((), desk.complaining [line]) := rfl
      have joined : (desk.complaining [line]).complaining rest =
          desk.complaining (line :: rest) := by
        simp [complaining]
      have split : (line :: rest).forM host.complain =
          (host.complain line >>= fun _ => rest.forM host.complain) := rfl
      rw [split, run_bind, first, ih, joined]

theorem failing_run (lines : List String) :
    (some <$> failing host lines).run desk = (some .failure, desk.complaining lines) := by
  rw [failing, map_bind, run_bind, forM_complain]
  rfl

theorem run_refused (refused : Assembly.Listing.ofSource source = .error error)
    (read : Options.ofArguments arguments = .ok options) (assembly : options.assembly = true)
    (given : desk.textAt options.file = .ok source) :
    desk.run filterText? fuel arguments =
      (some .failure, desk.complaining (assemblyComplaint options.file source error)) := by
  have loaded : load (reporting filterText? options) options source =
      pure (.error (assemblyComplaint options.file source error)) := by
    simp only [load, assembly, refused, if_true]
  rw [run_of_options read, execute_eq given, loaded, pure_bind, failing_run]

/-- A text that cannot be assembled has the line that its error names. The line is not empty and
shows what is wrong, and when the text is to be assembled and run, the error and this line are all
there is: nothing is printed, and no file is written. -/
theorem offending_line_is_shown (refused : assemble source = .error error) :
    ∃ fragment,
      1 ≤ error.line ∧ error.line ≤ (Text.lines source.toList).length ∧
      (Text.lines source.toList)[error.line - 1]? = some fragment ∧ fragment ≠ [] ∧
      error.ShownBy fragment ∧ Exit.failure.code = 1 ∧
      ∀ (desk : Desk) (options : Options) (arguments : List String) (filterText? : Option String)
        (fuel : Nat), Options.ofArguments arguments = .ok options → options.assembly = true →
        desk.textAt options.file = .ok source →
        desk.run filterText? fuel arguments = (some .failure, desk.complaining
          [s!"error:{options.file}:{error.line}: {error.message}", String.ofList fragment]) := by
  have failed : Assembly.Listing.ofSource source = .error error := map_eq_error_iff.mp refused
  obtain ⟨fragment, ⟨index, number, found⟩, notEmpty, shown⟩ := Assembly.exists_shownBy failed
  have place : (Text.lines source.toList)[error.line - 1]? = some fragment := by
    rw [number, Nat.add_sub_cancel]
    exact found
  have inside : index < (Text.lines source.toList).length :=
    (List.getElem?_eq_some_iff.mp found).1
  refine ⟨fragment, by omega, by omega, place, notEmpty, shown, rfl, ?_⟩
  intro desk options arguments filterText? fuel read assembly given
  rw [run_refused failed read assembly given, assemblyComplaint, place, Option.getD_some]

/-- The character that begins no token takes two bytes, and the line ends in a carriage return. -/
theorem accented_word_is_shown :
    let desk := ofText "in -> x\r\nout é\r\nend"
    desk.run none 0 ["-a", "-o", "out", "prog"] = (some .failure,
      desk.complaining ["error:prog:2: unexpected token at 2:5", "out é"]) := by
  intro desk
  let error : AssemblyError :=
    .lexical { fault := .unexpectedToken, line := 2, column := 5 }
  have refused : assemble "in -> x\r\nout é\r\nend" = .error error := by decide +kernel
  obtain ⟨fragment, _, _, place, _, _, _, prints⟩ := offending_line_is_shown refused
  have second : (Text.lines "in -> x\r\nout é\r\nend".toList)[1]? = some "out é".toList := by
    decide +kernel
  have same : fragment = "out é".toList := Option.some.inj (place.symm.trans second)
  let options : Options := { assembly := true, output := some "out", file := "prog" }
  have asked : Options.ofArguments ["-a", "-o", "out", "prog"] = .ok options := rfl
  have told : s!"error:{options.file}:{error.line}: {error.message}" =
      "error:prog:2: unexpected token at 2:5" := by
    decide +kernel
  rw [prints desk options _ none 0 asked rfl (prog_isName.textAt_store _ _), told, same,
    String.ofList_toList]

end Intcode.Console.Desk
