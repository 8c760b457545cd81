import Intcode.Proofs.Assembly.Grammar
import Intcode.Proofs.FirstFault

namespace Intcode.Assembly

/-- What may be written for a parameter, and the argument that it means. -/
inductive Passes : ParamKind → List Token → Argument → Prop
  | number {value : Word} : Passes .value [.number value] (.number value)
  | label {name : String} : Passes .value [.labelRef name] (.label name)
  | var {name : String} : Passes .value [.word name] (.var name)
  | destination {name : String} : Passes .destination [.arrow, .word name] (.var name)

/-- What may be written for parameters, one behind the other. -/
inductive PassesAll : List ParamKind → List Token → List Argument → Prop
  | nil : PassesAll [] [] []
  | cons {kind : ParamKind} {front rest : List Token} {argument : Argument}
      {kinds : List ParamKind} {arguments : List Argument} (first : Passes kind front argument)
      (others : PassesAll kinds rest arguments) :
      PassesAll (kind :: kinds) (front ++ rest) (argument :: arguments)

/-- What a line says. An initial value that is a name says as much as zero, and so do slots that
are left over. -/
inductive Says : List Token → Option Item → Prop
  | blank : Says [] none
  | label {name : String} : Says [.word name, .colon] (some (.label name))
  | var {name : String} : Says [.word "var", .word name] (some (.var name 0))
  | varNumber {name : String} {initial : Word} :
      Says [.word "var", .word name, .equals, .number initial] (some (.var name initial))
  | varName {name other : String} :
      Says [.word "var", .word name, .equals, .word other] (some (.var name 0))
  | instruction {opcode : Opcode} {tokens : List Token} {arguments : List Argument}
      {slots : Vector Argument maxArity} (passed : PassesAll opcode.params tokens arguments)
      (filled : slots.toList =
        arguments ++ List.replicate (maxArity - arguments.length) (.number 0)) :
      Says (.word opcode.mnemonic :: tokens) (some (.instruction opcode slots))

variable {tokens : List Token} {kinds : List ParamKind} {arguments : List Argument} {index : Nat}

theorem passesAll_of_readArguments (read : readArguments index kinds tokens = .ok arguments) :
    PassesAll kinds tokens arguments := by
  fun_induction readArguments index kinds tokens generalizing arguments with
  | case1 =>
      cases read
      exact .nil
  | case3 _ _ _ _ ih =>
      obtain ⟨others, readRest, rfl⟩ := map_eq_ok read
      exact .cons .number (ih readRest)
  | case4 _ _ _ _ ih =>
      obtain ⟨others, readRest, rfl⟩ := map_eq_ok read
      exact .cons .label (ih readRest)
  | case5 _ _ _ _ ih =>
      obtain ⟨others, readRest, rfl⟩ := map_eq_ok read
      exact .cons .var (ih readRest)
  | case8 _ _ _ _ ih =>
      obtain ⟨others, readRest, rfl⟩ := map_eq_ok read
      exact .cons .destination (ih readRest)
  | case2 | case6 | case7 | case9 | case10 | case11 => cases read

theorem PassesAll.readArguments_eq (passed : PassesAll kinds tokens arguments) (index : Nat) :
    readArguments index kinds tokens = .ok arguments := by
  induction passed generalizing index with
  | nil => rfl
  | cons first _ ih =>
      cases first <;> simp only [List.cons_append, List.nil_append, readArguments, ih] <;> rfl

theorem PassesAll.head_ne_colon (passed : PassesAll kinds tokens arguments) :
    tokens.head? ≠ some .colon := by
  cases passed with
  | nil => simp
  | cons first => cases first <;> simp

theorem PassesAll.length_eq (passed : PassesAll kinds tokens arguments) :
    arguments.length = kinds.length := by
  induction passed with
  | nil => rfl
  | cons _ _ ih => rw [List.length_cons, ih, List.length_cons]

theorem PassesAll.room {opcode : Opcode} (passed : PassesAll opcode.params tokens arguments) :
    arguments.length ≤ maxArity :=
  passed.length_eq ▸ Opcode.arity_le opcode

theorem ofArguments_eq_iff {opcode : Opcode} {slots : Vector Argument maxArity}
    (room : arguments.length ≤ maxArity) :
    Item.ofArguments opcode arguments = .instruction opcode slots ↔
      slots.toList = arguments ++ List.replicate (maxArity - arguments.length) (.number 0) := by
  have filled : (Vector.ofFn fun i : Fin maxArity => arguments[i.val]?.getD (.number 0)).toList =
      arguments ++ List.replicate (maxArity - arguments.length) (.number 0) := by
    apply List.ext_getElem?
    intro index
    rw [Vector.getElem?_toList, Vector.getElem?_ofFn, List.getElem?_append,
      List.getElem?_replicate]
    by_cases given : index < arguments.length
    · have within : index < maxArity := by omega
      rw [dif_pos within, if_pos given, List.getElem?_eq_getElem given, Option.getD_some]
    · have absent : arguments[index]? = none := List.getElem?_eq_none (by omega)
      rw [if_neg given]
      by_cases within : index < maxArity
      · rw [dif_pos within, if_pos (by omega), absent, Option.getD_none]
      · rw [dif_neg within, if_neg (by omega)]
  rw [← filled, Vector.toList_inj, Item.ofArguments, Item.instruction.injEq, and_iff_right rfl]
  exact eq_comm

theorem ofMnemonic?_eq_some_iff {name : String} {opcode : Opcode} :
    Opcode.ofMnemonic? name = some opcode ↔ opcode.mnemonic = name := by
  constructor
  · intro found
    rw [Opcode.ofMnemonic?] at found
    have passes := List.find?_some found
    exact eq_of_beq passes
  · rintro rfl
    cases opcode <;> rfl

theorem readLine_mnemonic {opcode : Opcode} (noLabel : tokens.head? ≠ some .colon) :
    readLine (.word opcode.mnemonic :: tokens) =
      (readArguments 0 opcode.params tokens).map fun arguments =>
        some (Item.ofArguments opcode arguments) := by
  -- The earlier patterns take a line that begins so only for a label or a variable.
  have notVar : opcode.mnemonic ≠ "var" := by cases opcode <;> decide
  unfold readLine
  split <;> rename_i split
  · cases split
  · cases split
    exact absurd rfl noLabel
  · cases split
    exact absurd rfl noLabel
  · cases split
  · exact absurd (Token.word.inj (List.cons.inj split).1) notVar
  · cases split
    rw [ofMnemonic?_eq_some_iff.mpr rfl]
  · exact absurd rfl (split opcode.mnemonic tokens)

theorem readLine_eq_ok_iff {item? : Option Item} :
    readLine tokens = .ok item? ↔ Says tokens item? := by
  constructor
  · intro read
    unfold readLine at read
    split at read
    · cases read
      exact .blank
    · cases read
      exact .label
    · cases read
    · cases read
    · split at read <;> cases read
      · exact .var
      · exact .varNumber
      · exact .varName
    · split at read
      · cases read
      · rename_i opcode found
        obtain ⟨arguments, readRest, rfl⟩ := map_eq_ok read
        rw [← ofMnemonic?_eq_some_iff.mp found]
        have passed := passesAll_of_readArguments readRest
        have filled : Item.ofArguments opcode arguments = .instruction opcode _ := rfl
        exact .instruction passed ((ofArguments_eq_iff passed.room).mp filled)
    · cases read
  · intro form
    cases form with
    | blank | label | var | varNumber | varName => rfl
    | instruction passed filled =>
        rw [readLine_mnemonic passed.head_ne_colon, passed.readArguments_eq,
          ← (ofArguments_eq_iff passed.room).mpr filled]
        rfl

/-- The statements that lines make, the first of which has a certain number. -/
def numbered (line : Nat) (items : List (Option Item)) : List Statement :=
  (items.zipIdx line).filterMap fun (item?, line) => item?.map fun item => { line, item }

/-- A row that has no form, with its number when the rows are counted from `start` on. -/
def IsFormless (start : Nat) (before : List (List Token)) (row : List Token) (line : Nat) : Prop :=
  line = start + before.length ∧ ∀ item?, ¬ Says row item?

theorem numbered_none (line : Nat) (items : List (Option Item)) :
    numbered line (none :: items) = numbered (line + 1) items := rfl

theorem numbered_some (line : Nat) (item : Item) (items : List (Option Item)) :
    numbered line (some item :: items) = { line, item } :: numbered (line + 1) items := rfl

variable {rows : List (List Token)} {line start : Nat} {found : List Statement}

theorem readLines_of_forms {items : List (Option Item)} (form : List.Forall₂ Says rows items) :
    readLines line rows = .ok (numbered line items) := by
  induction form generalizing line with
  | nil => rfl
  | @cons row item? rows items first _ ih =>
      simp only [readLines, readLine_eq_ok_iff.mpr first]
      cases item? with
      | none => rw [numbered_none, ih]
      | some item =>
          rw [numbered_some, ih]
          rfl

theorem forms_of_readLines (read : readLines line rows = .ok found) :
    ∃ items, List.Forall₂ Says rows items := by
  induction rows generalizing line found with
  | nil => exact ⟨[], .nil⟩
  | cons row rest ih =>
      simp only [readLines] at read
      split at read
      · cases read
      · rename_i blank
        obtain ⟨items, forms⟩ := ih read
        exact ⟨_, .cons (readLine_eq_ok_iff.mp blank) forms⟩
      · rename_i item first
        obtain ⟨further, readRest, _⟩ := map_eq_ok read
        obtain ⟨items, forms⟩ := ih readRest
        exact ⟨_, .cons (readLine_eq_ok_iff.mp first) forms⟩

theorem readLines_eq_ok_iff :
    readLines line rows = .ok found ↔
      ∃ items, List.Forall₂ Says rows items ∧ found = numbered line items := by
  constructor
  · intro read
    obtain ⟨items, forms⟩ := forms_of_readLines read
    rw [readLines_of_forms forms] at read
    exact ⟨items, forms, (Except.ok.inj read).symm⟩
  · rintro ⟨items, forms, rfl⟩
    exact readLines_of_forms forms

theorem exists_forms_iff :
    (∃ items, List.Forall₂ Says rows items) ↔ ∀ row ∈ rows, ∃ item?, Says row item? := by
  induction rows with
  | nil => exact iff_of_true ⟨[], .nil⟩ (List.forall_mem_nil _)
  | cons row rest ih =>
      rw [List.forall_mem_cons, ← ih]
      constructor
      · rintro ⟨_, both⟩
        obtain ⟨item?, items, form, forms, _⟩ := List.forall₂_cons_left_iff.mp both
        exact ⟨⟨item?, form⟩, items, forms⟩
      · rintro ⟨⟨item?, form⟩, items, forms⟩
        exact ⟨item? :: items, .cons form forms⟩

theorem exists_readLines_iff :
    (∃ found, readLines line rows = .ok found) ↔ ∀ row ∈ rows, ∃ item?, Says row item? := by
  rw [← exists_forms_iff]
  constructor
  · rintro ⟨found, read⟩
    exact forms_of_readLines read
  · rintro ⟨items, forms⟩
    exact ⟨_, readLines_of_forms forms⟩

theorem readLines_eq_error_iff :
    (∃ fault, readLines start rows = .error { fault, line }) ↔
      FirstFault (IsFormless start) rows line := by
  induction rows generalizing start with
  | nil => exact iff_of_false (by rintro ⟨_, ⟨⟩⟩) not_firstFault_nil
  | cons row rest ih =>
      have moved : (fun before => IsFormless start (row :: before)) = IsFormless (start + 1) := by
        funext before other number
        simp only [IsFormless, List.length_cons, Nat.add_assoc, Nat.add_comm 1]
      rw [firstFault_cons, moved, ← ih]
      simp only [readLines, IsFormless, ← readLine_eq_ok_iff]
      cases read : readLine row with
      | error fault => simp [eq_comm]
      | ok item? =>
          cases item? with
          | none => simp
          | some item => simp [map_eq_error_iff]

theorem notMem_of_mem_splitOn {separator : Token} {row : List Token}
    (member : row ∈ tokens.splitOn separator) : separator ∉ row := by
  induction tokens generalizing row with
  | nil =>
      rw [List.splitOn_nil, List.mem_singleton] at member
      rw [member]
      exact List.not_mem_nil
  | cons token rest ih =>
      rw [List.splitOn_cons_eq_if_modifyHead] at member
      split at member <;> rename_i other
      · rcases List.mem_cons.mp member with rfl | later
        · exact List.not_mem_nil
        · exact ih later
      · obtain ⟨first, others, split⟩ :=
          List.exists_cons_of_ne_nil (List.splitOn_ne_nil separator rest)
        rw [split, List.modifyHead_cons] at member
        rw [split] at ih
        rcases List.mem_cons.mp member with rfl | later
        · rw [List.mem_cons, not_or]
          exact ⟨fun same => other (beq_iff_eq.mpr same.symm), ih List.mem_cons_self⟩
        · exact ih (List.mem_cons_of_mem _ later)

/-- Tokens are read as statements just if each of their lines has a form. There is one statement for
each line that is not blank, with its number, and otherwise the first line without a form is where
reading fails. -/
theorem reading_follows_forms (tokens : List Token) :
    ∃ rows : List (List Token),
      rows ≠ [] ∧ (∀ row ∈ rows, .newline ∉ row) ∧
      [.newline].intercalate rows = tokens.filter (fun token => !token.isComment) ∧
      ((∃ found, statements tokens = .ok found) ↔ ∀ row ∈ rows, ∃ item?, Says row item?) ∧
      (∀ found, statements tokens = .ok found ↔
        ∃ items, List.Forall₂ Says rows items ∧ found = numbered 1 items) ∧
      ∀ line, (∃ fault, statements tokens = .error { fault, line }) ↔
        FirstFault (IsFormless 1) rows line := by
  have lines := List.splitOn_ne_nil Token.newline (tokens.filter fun token => !token.isComment)
  exact ⟨_, lines, fun row => notMem_of_mem_splitOn, List.intercalate_splitOn Token.newline,
    exists_readLines_iff, fun found => readLines_eq_ok_iff, fun line => readLines_eq_error_iff⟩

end Intcode.Assembly
