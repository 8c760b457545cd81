import Intcode.Assembly.Code

namespace Intcode.Assembly

/-! # Statements in batches

Declarations may be added and code may be generated batch by batch. The symbols are those of all
statements in a row. The code of every batch begins with the header of the whole program, so only
the first one keeps it.
-/

namespace Symbols

variable {symbols : Symbols} {batch later : List Statement}

theorem populate_append :
    symbols.populate (batch ++ later) =
      symbols.populate batch >>= fun between => between.populate later :=
  List.foldlM_append

theorem length_header (symbols : Symbols) : symbols.header.length = symbols.headerSize := by
  unfold header headerSize
  cases symbols.vars.isEmpty <;> rfl

theorem generate_append :
    symbols.generate (batch ++ later) =
      symbols.generate batch >>= fun words =>
        (symbols.generate later).map fun more => words ++ more.drop symbols.headerSize := by
  have behind (code : List Word) : (symbols.header ++ code).drop symbols.headerSize = code :=
    List.drop_left' symbols.length_header
  rw [generate, generate, generate, List.mapM_append]
  cases batch.mapM symbols.cells with
  | error error => rfl
  | ok cells =>
      cases later.mapM symbols.cells with
      | error error => rfl
      | ok more =>
          simp only [bind, Except.bind, pure, Except.pure, Except.map, behind,
            List.flatten_append, List.append_assoc]

end Symbols

/-- Two batches come to the same as one: for the symbols, whatever is known before, and for the
code, of which the second batch brings what stands behind the header. The error of the first batch
comes first. -/
theorem batches_compose (symbols : Symbols) (batch later : List Statement) :
    symbols.populate (batch ++ later) =
      (match symbols.populate batch with
      | .error error => .error error
      | .ok between => between.populate later) ∧
    symbols.generate (batch ++ later) =
      match symbols.generate batch, symbols.generate later with
      | .error error, _ => .error error
      | .ok _, .error error => .error error
      | .ok words, .ok more => .ok (words ++ more.drop symbols.headerSize) := by
  rw [Symbols.populate_append, Symbols.generate_append]
  constructor
  · cases symbols.populate batch <;> rfl
  · cases symbols.generate batch <;> cases symbols.generate later <;> rfl

end Intcode.Assembly
