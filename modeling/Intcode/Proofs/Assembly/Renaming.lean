import Intcode.Assembly.Code
import Intcode.Proofs.FirstFault
import Mathlib.Data.List.Basic

namespace Intcode.Assembly

/-- New names for labels and new names for variables. Different names stay different. A label and a
variable may come to be called the same, or no longer be. -/
structure Renaming where
  label : String → String
  var : String → String
  label_injective : Function.Injective label
  var_injective : Function.Injective var

def Argument.rename (naming : Renaming) : Argument → Argument
  | number value => number value
  | label name => label (naming.label name)
  | var name => var (naming.var name)

def Item.rename (naming : Renaming) : Item → Item
  | label name => label (naming.label name)
  | var name initial => var (naming.var name) initial
  | instruction opcode slots => instruction opcode (slots.map (Argument.rename naming))

def Statement.rename (naming : Renaming) (statement : Statement) : Statement :=
  { statement with item := statement.item.rename naming }

def CodeFault.rename (naming : Renaming) : CodeFault → CodeFault
  | duplicateLabel name => duplicateLabel (naming.label name)
  | duplicateVariable name => duplicateVariable (naming.var name)
  | unknownLabel name => unknownLabel (naming.label name)
  | undeclaredVariable name => undeclaredVariable (naming.var name)

def CodeError.rename (naming : Renaming) (error : CodeError) : CodeError :=
  { error with fault := error.fault.rename naming }

variable {naming : Renaming}

@[simp] theorem Argument.isImmediate_rename (argument : Argument) :
    (argument.rename naming).isImmediate = argument.isImmediate := by
  cases argument <;> rfl

@[simp] theorem Item.arguments_rename (item : Item) :
    (item.rename naming).arguments = item.arguments.map (Argument.rename naming) := by
  cases item with
  | label | var => rfl
  | instruction opcode slots => rw [rename, arguments, arguments, Vector.toList_map, List.map_take]

namespace Symbols

variable {symbols other : Symbols} {places others : Std.ExtTreeMap String Nat}
  {change : String → String} {name : String} {place : Nat}

/-- Symbols that know what other symbols know, each name by its new name. -/
structure Renames (naming : Renaming) (symbols other : Symbols) : Prop where
  labels : ∀ name, other.labels[naming.label name]? = symbols.labels[name]?
  vars : ∀ name, other.vars[naming.var name]? = symbols.vars[name]?
  empty : other.vars.isEmpty = symbols.vars.isEmpty
  codeStart : other.codeStart = symbols.codeStart
  count : other.count = symbols.count

/-- What is made of renamed declarations, and what is made of the declarations. -/
inductive Agrees (naming : Renaming) : Except CodeError Symbols → Except CodeError Symbols → Prop
  | ok {symbols other : Symbols} (renames : Renames naming symbols other) :
      Agrees naming (.ok other) (.ok symbols)
  | error (error : CodeError) : Agrees naming (.error (error.rename naming)) (.error error)

theorem renames_empty (naming : Renaming) : Renames naming {} {} := by
  refine ⟨?_, ?_, rfl, rfl, rfl⟩ <;> intro name <;> simp

theorem mem_renamed_iff (same : ∀ name, others[change name]? = places[name]?) :
    change name ∈ others ↔ name ∈ places := by
  rw [Std.ExtTreeMap.mem_iff_isSome_getElem?, same, ← Std.ExtTreeMap.mem_iff_isSome_getElem?]

theorem getElem?_insert_renamed (injective : Function.Injective change)
    (same : ∀ name, others[change name]? = places[name]?) (later : String) :
    (others.insert (change name) place)[change later]? = (places.insert name place)[later]? := by
  simp only [Std.ExtTreeMap.getElem?_insert, Std.LawfulEqCmp.compare_eq_iff_eq, same,
    injective.eq_iff]

theorem Renames.declare (renames : Renames naming symbols other) (statement : Statement) :
    Agrees naming (other.declare (statement.rename naming)) (symbols.declare statement) := by
  obtain ⟨line, item⟩ := statement
  cases item with
  | label name =>
      simp only [Symbols.declare, Statement.rename, Item.rename, mem_renamed_iff renames.labels,
        renames.count]
      split
      · exact .error { fault := .duplicateLabel name, line }
      · exact .ok ⟨getElem?_insert_renamed naming.label_injective renames.labels, renames.vars,
          renames.empty, renames.codeStart, rfl⟩
  | var name initial =>
      have filled {places : Std.ExtTreeMap String Nat} {name : String} {place : Nat} :
          (places.insert name place).isEmpty = false :=
        Std.ExtTreeMap.isEmpty_eq_false_iff.mpr Std.ExtTreeMap.insert_ne_empty
      simp only [Symbols.declare, Statement.rename, Item.rename, mem_renamed_iff renames.vars,
        renames.count]
      split
      · exact .error { fault := .duplicateVariable name, line }
      · exact .ok ⟨renames.labels, getElem?_insert_renamed naming.var_injective renames.vars,
          filled.trans filled.symm, renames.codeStart, rfl⟩
  | instruction opcode slots =>
      simp only [Symbols.declare, Statement.rename, Item.rename, renames.count, renames.codeStart]
      exact .ok ⟨renames.labels, renames.vars, renames.empty, rfl, rfl⟩

theorem Renames.populate (renames : Renames naming symbols other) (batch : List Statement) :
    Agrees naming (other.populate (batch.map (Statement.rename naming)))
      (symbols.populate batch) := by
  induction batch generalizing symbols other with
  | nil => exact .ok renames
  | cons statement rest ih =>
      rw [List.map_cons, Symbols.populate, Symbols.populate, List.foldlM_cons, List.foldlM_cons]
      have first := renames.declare statement
      generalize other.declare (statement.rename naming) = changed at first
      generalize symbols.declare statement = original at first
      cases first with
      | ok renames => exact ih renames
      | error error => exact .error error

theorem Renames.headerSize (renames : Renames naming symbols other) :
    other.headerSize = symbols.headerSize := by
  rw [Symbols.headerSize, renames.empty, Symbols.headerSize]

theorem Renames.address (renames : Renames naming symbols other) (place : Nat) :
    other.address place = symbols.address place := by
  rw [Symbols.address, renames.headerSize, Symbols.address]

theorem Renames.header (renames : Renames naming symbols other) :
    other.header = symbols.header := by
  rw [Symbols.header, renames.headerSize, renames.address, renames.codeStart, renames.count,
    Symbols.header]

theorem Renames.argumentWord (renames : Renames naming symbols other) (line : Nat)
    (argument : Argument) :
    other.argumentWord line (argument.rename naming) =
      (symbols.argumentWord line argument).mapError (CodeError.rename naming) := by
  cases argument with
  | number value => rfl
  | label name =>
      simp only [Symbols.argumentWord, Argument.rename, renames.labels, renames.address]
      cases symbols.labels[name]? <;> rfl
  | var name =>
      simp only [Symbols.argumentWord, Argument.rename, renames.vars, renames.address]
      cases symbols.vars[name]? <;> rfl

theorem Renames.cells (renames : Renames naming symbols other) (statement : Statement) :
    other.cells (statement.rename naming) =
      (symbols.cells statement).mapError (CodeError.rename naming) := by
  obtain ⟨line, item⟩ := statement
  cases item with
  | label name => rfl
  | var name initial => rfl
  | instruction opcode slots =>
      have arguments :
          (Item.instruction opcode (slots.map (Argument.rename naming))).arguments =
            (Item.instruction opcode slots).arguments.map (Argument.rename naming) :=
        Item.arguments_rename (.instruction opcode slots)
      have immediate : Argument.isImmediate ∘ Argument.rename naming = Argument.isImmediate :=
        funext Argument.isImmediate_rename
      simp only [Symbols.cells, Statement.rename, Item.rename]
      rw [arguments, List.map_map, immediate, mapM_map_mapError (renames.argumentWord line),
        map_mapError]

theorem Renames.generate (renames : Renames naming symbols other) (batch : List Statement) :
    other.generate (batch.map (Statement.rename naming)) =
      (symbols.generate batch).mapError (CodeError.rename naming) := by
  rw [Symbols.generate, mapM_map_mapError renames.cells, renames.header, map_mapError,
    Symbols.generate]

end Symbols

/-- Renaming keeps the words that statements stand for. It keeps the place and the kind of an
error, and the error then tells the new name. -/
theorem names_do_not_matter (naming : Renaming) (batch : List Statement) :
    let renamed := batch.map (Statement.rename naming)
    (({} : Symbols).populate renamed >>= fun symbols => symbols.generate renamed) =
      (({} : Symbols).populate batch >>= fun symbols => symbols.generate batch).mapError
        (CodeError.rename naming) := by
  intro renamed
  have populated : Symbols.Agrees naming (({} : Symbols).populate renamed)
      (({} : Symbols).populate batch) := (Symbols.renames_empty naming).populate batch
  generalize ({} : Symbols).populate renamed = changed at populated ⊢
  generalize ({} : Symbols).populate batch = original at populated ⊢
  cases populated with
  | ok renames => exact renames.generate batch
  | error error => rfl

/-- Variables are marked, so that a variable may come to be called like a label. -/
def marking : Renaming where
  label := id
  var name := "v" ++ name
  label_injective := Function.injective_id
  var_injective _ _ same := (String.append_right_inj "v").mp same

/-- A label and a variable that come to be called the same, and a variable that is not declared. -/
def marked (spare : Argument) : List Statement :=
  [⟨1, .label "vx"⟩, ⟨2, .ofArguments .input [.var "x"]⟩,
    ⟨3, .ofArguments .jumpTrue [.var "x", .label "vx"]⟩, ⟨4, .var "x" 7⟩,
    ⟨5, .ofArguments .output [spare]⟩]

theorem shared_name_does_not_matter :
    let code (batch : List Statement) :=
      ({} : Symbols).populate batch >>= fun symbols => symbols.generate batch
    let renamed (spare : Argument) := (marked spare).map (Statement.rename marking)
    (renamed (.number 0)).map Statement.item =
      [.label "vx", .ofArguments .input [.var "vx"],
        .ofArguments .jumpTrue [.var "vx", .label "vx"], .var "vx" 7,
        .ofArguments .output [.number 0]] ∧
    code (renamed (.number 0)) = .ok [1105, 1, 3, 3, 8, 1005, 8, 3, 7, 104, 0] ∧
    code (renamed (.var "y")) = .error { fault := .undeclaredVariable "vy", line := 5 } := by
  intro code renamed
  have generated : code (marked (.number 0)) = .ok [1105, 1, 3, 3, 8, 1005, 8, 3, 7, 104, 0] := by
    decide +kernel
  have refused : code (marked (.var "y")) = .error { fault := .undeclaredVariable "y", line := 5 } := by
    decide +kernel
  refine ⟨by decide +kernel, ?_, ?_⟩
  · exact (names_do_not_matter marking _).trans (congrArg (Except.mapError _) generated)
  · exact (names_do_not_matter marking _).trans (congrArg (Except.mapError _) refused)

end Intcode.Assembly
